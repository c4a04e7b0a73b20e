/-
# The names that conditions can refer to

A scope gives texts to names. A name that it does not know counts as the empty
text, so that asking for it is never an error.
-/

import LayeredIni.Bindings

namespace LayeredIni

/-- The text of each known name. -/
abbrev Scope := String → Option String

namespace Scope

/-- The scope without any names. -/
def empty : Scope :=
  fun _ => none

/-- The scope of the given names. -/
def ofBindings (bindings : Bindings String) : Scope :=
  fun name => bindings.lookup name

/-- What follows `name=` in an environment entry, if the entry starts so. -/
def entryValue? (name entry : List Char) : Option (List Char) :=
  (name ++ ['=']).isPrefixOf? entry

/-- The scope of an environment, which holds an entry `NAME=VALUE` for each of
its variables. A name is looked up with `leader` in front of it, and its text
is what follows that and an equals sign in the first entry that starts so. No
variable has an empty name. -/
def environment (leader : String) (bindings : Bindings String) : Scope :=
  fun name =>
    let sought := leader.toList ++ name.toList
    if sought.isEmpty then none
    else
      (bindings.findSome? fun (known, value) =>
        entryValue? sought (known.toList ++ '=' :: value.toList)).map String.ofList

/-- The text of a name, empty if the name is unknown. -/
def text (scope : Scope) (name : String) : String :=
  (scope name).getD ""

end Scope

end LayeredIni
