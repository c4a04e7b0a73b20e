/-
# The lines of a document

A document is read line by line, and what a line is depends on the line alone:
a remark, the header of a section, or an entry `key = value`. `Line.read`
says which of these a line is, or what is wrong with it.
-/

import LayeredIni.Text.Basic
import LayeredIni.Text.Split

namespace LayeredIni.Document

open LayeredIni.Text

/-- What is wrong with a line. -/
inductive LineFault
  /-- A header that no closing bracket ends. -/
  | unterminatedHeader
  /-- A header of nothing but blanks. -/
  | blankHeader
  /-- A line that is no header and has no equals sign. -/
  | missingEquals
  /-- Nothing but blanks before the equals sign. -/
  | emptyKey
  /-- A quoted value without its closing quote. -/
  | unterminatedValue
  /-- A quoted value with something other than a remark after it. -/
  | trailingText (text : String)
deriving DecidableEq, Repr

/-- The wording of a fault. -/
def LineFault.message : LineFault → String
  | unterminatedHeader => "unterminated section header"
  | blankHeader => "empty section name"
  | missingEquals => "expected `key = value`"
  | emptyKey => "empty key"
  | unterminatedValue => "unterminated quoted value"
  | trailingText text => "unexpected text after quoted value: '" ++ text ++ "'"

/-- What a line contributes to its document. -/
inductive Line
  /-- A blank line or a comment. -/
  | remark
  /-- The text between the brackets of a section header, untrimmed. -/
  | header (raw : String)
  /-- A key with its value. -/
  | entry (key value : String)
deriving DecidableEq, Repr

/-- A text that contributes nothing: blank, or a comment after any blanks. -/
def isRemark (text : List Char) : Bool :=
  match trimStart text with
  | [] => true
  | c :: _ => c == ';' || c == '#'

/-- The header in a text that starts after an opening bracket: it reaches to
the first closing bracket that only a remark follows. -/
def headerText : List Char → Option (List Char)
  | [] => none
  | c :: rest =>
    if c = ']' ∧ isRemark rest then some [] else (headerText rest).map (c :: ·)

/-- Reads a value up to its closing double quote and returns what follows the
quote. A backslash makes a quote or a backslash part of the value and stands
for itself before any other character. -/
def readDoubleQuoted : List Char → Option (List Char × List Char)
  | [] => none
  | '"' :: rest => some ([], rest)
  | '\\' :: c :: rest =>
    (readDoubleQuoted rest).map fun (value, after) =>
      (if c = '"' ∨ c = '\\' then c :: value else '\\' :: c :: value, after)
  | c :: rest => (readDoubleQuoted rest).map fun (value, after) => (c :: value, after)

/-- Reads a value up to its closing single quote, everything literally. -/
def readSingleQuoted (text : List Char) : Option (List Char × List Char) :=
  cutAtFirst (· == '\'') text

/-- Accepts a quoted value that was read to its end if only a remark follows. -/
def closeQuoted : Option (List Char × List Char) → Except LineFault (List Char)
  | none => .error .unterminatedValue
  | some (value, after) =>
    if isRemark after then .ok value
    else .error (.trailingText (String.ofList (trimStart after)))

/-- The value that a trimmed right-hand side denotes: quoted, or everything
before the first semicolon. -/
def readValue : List Char → Except LineFault (List Char)
  | '"' :: rest => closeQuoted (readDoubleQuoted rest)
  | '\'' :: rest => closeQuoted (readSingleQuoted rest)
  | plain => .ok (plain.takeWhile (· != ';'))

/-- Reads the text after an opening bracket as a section header. -/
def readHeader (text : List Char) : Except LineFault Line :=
  match headerText text with
  | none => .error .unterminatedHeader
  | some raw =>
    if (trim raw).isEmpty then .error .blankHeader else .ok (.header (String.ofList raw))

/-- Reads a line as `key = value`, cut at its first equals sign. -/
def readEntry (text : List Char) : Except LineFault Line :=
  match cutAtFirst (· == '=') text with
  | none => .error .missingEquals
  | some (before, after) =>
    let key := trim before
    if key.isEmpty then .error .emptyKey
    else
      match readValue (trim after) with
      | .error fault => .error fault
      | .ok value => .ok (.entry (String.ofList key) (String.ofList value))

/-- Classifies a trimmed line. -/
def Line.ofTrimmed (text : List Char) : Except LineFault Line :=
  if isRemark text then .ok .remark
  else
    match text with
    | '[' :: rest => readHeader rest
    | text => readEntry text

/-- Classifies a line; the blanks at its ends do not count. -/
def Line.read (text : List Char) : Except LineFault Line :=
  Line.ofTrimmed (trim text)

end LayeredIni.Document
