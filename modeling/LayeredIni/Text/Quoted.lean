/-
# Quoted texts in diagnostics

A diagnostic that speaks of a text shows it between double quotes, in a form
in which every character can be told from every other.
-/

import LayeredIni.Text.Unprintable

namespace LayeredIni.Text

/-- A code point in lower-case hexadecimal without leading zeros. -/
def hexadecimal (n : Nat) : List Char :=
  Nat.toDigits 16 n

/-- A character as it stands in a quoted text: quotes and backslashes after a
backslash, line ends, tabs and NUL by their letters, other unprintable
characters by their code point in braces, and everything else as it is. -/
def quotedChar (c : Char) : List Char :=
  match c with
  | '"' => ['\\', '"']
  | '\\' => ['\\', '\\']
  | '\n' => ['\\', 'n']
  | '\r' => ['\\', 'r']
  | '\t' => ['\\', 't']
  | '\x00' => ['\\', '0']
  | c =>
    if isUnprintable c then ['\\', 'u', '\x7b'] ++ hexadecimal c.toNat ++ ['\x7d'] else [c]

/-- A text between double quotes. -/
def quoted (text : String) : String :=
  String.ofList (['"'] ++ text.toList.flatMap quotedChar ++ ['"'])

end LayeredIni.Text
