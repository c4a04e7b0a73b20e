/-
# Named values in the order of their first insertion

A list of named values in which inserting under a known name replaces the
value in place and inserting under a new name appends. Names therefore keep
the position at which they first came up.
-/

namespace LayeredIni

/-- Values under names, in the order in which the names were first inserted. -/
abbrev Bindings (α : Type) := List (String × α)

namespace Bindings

variable {α : Type}

/-- The names, in order. -/
def keys (bindings : Bindings α) : List String :=
  bindings.map Prod.fst

/-- Puts a value under a name: in place if the name is known, else at the end. -/
def insert (key : String) (value : α) : Bindings α → Bindings α
  | [] => [(key, value)]
  | (k, v) :: rest => if k = key then (k, value) :: rest else (k, v) :: insert key value rest

end Bindings

end LayeredIni
