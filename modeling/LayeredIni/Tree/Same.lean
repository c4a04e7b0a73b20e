/-
# Equality up to the order of keys

Two trees say the same when they give the same keys the same texts and trees
that say the same, whatever the order of the entries at any level.
-/

import LayeredIni.Tree.Basic

namespace LayeredIni

/-- Whether a tree gives each key of these entries the same text, or a tree
that says the same. -/
def Entries.agree : Entries → Tree → Bool
  | nil, _ => true
  | scalar key text rest, other =>
    (match other.get? key with
      | some (.scalar found) => text == found
      | _ => false) &&
    rest.agree other
  | branch key children rest, other =>
    (match other.get? key with
      | some (.tree found) => children.keys.length == found.size && children.agree found
      | _ => false) &&
    rest.agree other

/-- Whether two trees say the same: they have equally many entries, and the
second agrees with each of the first. -/
def Tree.same (first second : Tree) : Bool :=
  first.size == second.size && first.entries.agree second

end LayeredIni
