/-
# What a header does to the tree under construction

A header that counts prepares a tree under the key of its section: a copy of
the parent's tree for an inheritance, an empty tree otherwise. What follows
the header is then written into that tree.
-/

import LayeredIni.Condition.Evaluation
import LayeredIni.Header
import LayeredIni.Tree.Basic

namespace LayeredIni

/-- The outcome of a header. -/
inductive Resolution
  /-- The section does not count. -/
  | skip
  /-- The section starts as a copy under this key. -/
  | inherit (key : String)
  /-- The section starts empty under this key. -/
  | accept (key : String)
deriving DecidableEq, Repr

/-- The key of a section that counts. -/
def Resolution.key? : Resolution → Option String
  | skip => none
  | inherit key => some key
  | accept key => some key

/-- Applies a header to a tree. A parent that has no tree leaves its child empty. -/
def Header.resolve (scope : Scope) (tree : Tree) : Header → Resolution × Tree
  | plain name => (.accept name, tree.insert name (.tree .empty))
  | inherit child parent => (.inherit child, tree.insert child (.tree (tree.child parent)))
  | conditional name condition =>
    if condition.eval scope then (.accept name, tree.insert name (.tree .empty))
    else (.skip, tree)

/-- Reads a header and applies it to a tree. -/
def Tree.resolve (scope : Scope) (tree : Tree) (raw : String) :
    Except Header.Error (Resolution × Tree) :=
  match Header.parse raw with
  | .error error => .error error
  | .ok header => .ok (header.resolve scope tree)

namespace Tree

variable {scope : Scope} {tree : Tree} {raw : String}

theorem resolve_of_parse {header : Header} (h : Header.parse raw = .ok header) :
    tree.resolve scope raw = .ok (header.resolve scope tree) := by
  rw [resolve, h]

theorem resolve_of_parse_error {error : Header.Error} (h : Header.parse raw = .error error) :
    tree.resolve scope raw = .error error := by
  rw [resolve, h]

end Tree

end LayeredIni
