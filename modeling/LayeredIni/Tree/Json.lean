/-
# Trees as JSON

A tree is written as an object in the order of its entries, without any space
between tokens. Everything but quotes, backslashes and control characters
below U+0020 stands in a JSON text as it is.
-/

import LayeredIni.Tree.Basic

namespace LayeredIni

namespace Json

/-- A hexadecimal digit in lower case. -/
def hexDigit (n : Nat) : Char :=
  Nat.digitChar n

/-- A character as it stands in a JSON string. -/
def character (c : Char) : List Char :=
  match c with
  | '"' => ['\\', '"']
  | '\\' => ['\\', '\\']
  | '\x08' => ['\\', 'b']
  | '\x0c' => ['\\', 'f']
  | '\n' => ['\\', 'n']
  | '\r' => ['\\', 'r']
  | '\t' => ['\\', 't']
  | c =>
    if c.toNat < 0x20 then
      ['\\', 'u', '0', '0', hexDigit (c.toNat / 16), hexDigit (c.toNat % 16)]
    else [c]

/-- A text as a JSON string. -/
def string (text : String) : List Char :=
  '"' :: text.toList.flatMap character ++ ['"']

/-- An object of members that are already written. -/
def object (members : List (List Char)) : List Char :=
  '\x7b' :: [','].intercalate members ++ ['\x7d']

end Json

/-- The entries as members of a JSON object. -/
def Entries.jsonMembers : Entries → List (List Char)
  | nil => []
  | scalar key text rest => (Json.string key ++ ':' :: Json.string text) :: rest.jsonMembers
  | branch key children rest =>
    (Json.string key ++ ':' :: Json.object children.jsonMembers) :: rest.jsonMembers

/-- The tree as a JSON object. -/
def Tree.json (tree : Tree) : String :=
  String.ofList (Json.object tree.entries.jsonMembers)

end LayeredIni
