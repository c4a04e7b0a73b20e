/-
# Characters, blanks and letter case

A property of the Unicode character database is a set of code points, which the
tables of this library state by the ranges that it consists of.

Blanks are the characters with the property White_Space. They carry no meaning
at either end of a line, a key, a value or a name, and `trim` removes them there.

Keywords and the words for truth values are recognised in any case of the ASCII
letters. No other letter has a second case here.
-/

namespace LayeredIni.Text

/-- A set of code points, written as closed ranges `(first, last)`. -/
abbrev Ranges := List (Nat × Nat)

/-- A character belongs to the set when one of the ranges holds its code point. -/
def Ranges.contains (ranges : Ranges) (c : Char) : Bool :=
  ranges.any fun (first, last) => first ≤ c.toNat && c.toNat ≤ last

/-- The code points with the property White_Space. -/
def blankRanges : Ranges :=
  [ (0x9, 0xD), (0x20, 0x20), (0x85, 0x85), (0xA0, 0xA0), (0x1680, 0x1680), (0x2000, 0x200A),
    (0x2028, 0x2029), (0x202F, 0x202F), (0x205F, 0x205F), (0x3000, 0x3000) ]

/-- A blank is a white space character of any script. -/
def isBlank (c : Char) : Bool :=
  blankRanges.contains c

/-- The text from its first character that is no blank. -/
def trimStart (text : List Char) : List Char :=
  text.dropWhile isBlank

/-- The text up to its last character that is no blank. -/
def trimEnd (text : List Char) : List Char :=
  (text.reverse.dropWhile isBlank).reverse

/-- The text without the blanks at either end. -/
def trim (text : List Char) : List Char :=
  trimEnd (trimStart text)

/-- `trim` on strings. -/
def trimmed (text : String) : String :=
  String.ofList (trim text.toList)

/-- The text with its ASCII capitals in lower case. -/
def lowerCase (text : List Char) : List Char :=
  text.map Char.toLower

/-- Whether the text is one of the words, whatever the case of its ASCII letters.
The words are given in lower case. -/
def isOneOf (words : List String) (text : List Char) : Bool :=
  words.any fun word => word.toList == lowerCase text

end LayeredIni.Text
