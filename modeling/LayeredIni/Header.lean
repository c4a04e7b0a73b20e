/-
# Section headers

A header names the section that it opens in one of three ways: plainly, as the
child of an earlier section, `child : parent`, or under a condition,
`name (condition)`. A header with a parenthesis is never an inheritance, so a
colon inside a condition has no meaning of its own.
-/

import LayeredIni.Condition.Parser

namespace LayeredIni

open LayeredIni.Text

/-- What a header says about its section. -/
inductive Header
  /-- A section of this name. -/
  | plain (name : String)
  /-- A section that starts as a copy of another one. -/
  | inherit (child parent : String)
  /-- A section that counts only if a condition holds. -/
  | conditional (name : String) (condition : Condition)
deriving DecidableEq, Repr

namespace Header

/-- What is wrong with a header. -/
inductive Fault
  /-- A condition without a name before it. -/
  | missingName
  /-- A closing parenthesis without any opening one, after this many bytes of
  the header in UTF-8. -/
  | unopenedParenthesis (bytes : Nat)
  /-- An inheritance without a name before the colon. -/
  | missingChild
  /-- A condition that cannot be read. Its offsets count from the first parenthesis. -/
  | condition (error : Condition.Error)
deriving DecidableEq, Repr

/-- The wording of a fault. -/
def Fault.message : Fault → String
  | missingName => "at offset 0: missing section name before condition"
  | unopenedParenthesis bytes => "at offset " ++ toString bytes ++ ": unbalanced ')'"
  | missingChild => "at offset 0: missing section name before ':'"
  | condition error => error.message

/-- A header that cannot be read. -/
structure Error where
  /-- The header as the document writes it. -/
  raw : String
  /-- What is wrong with it. -/
  fault : Fault
deriving DecidableEq, Repr

/-- The wording of the error. -/
def Error.message (error : Error) : String :=
  "invalid section header '" ++ error.raw ++ "': " ++ error.fault.message

/-- A character that can stand beside the colon of an inheritance: ASCII white
space, an ASCII letter or digit, or an underscore. -/
def isFlank (c : Char) : Bool :=
  c == ' ' || c == '\t' || c == '\n' || c == '\r' || c == '\x0c' || c.isAlphanum || c == '_'

/-- The text after a colon at the start of `text`, if `before` and the first
character of that text can stand beside the colon. -/
def afterFlankedColon (before : Char) (text : List Char) : Option (List Char) :=
  match text with
  | ':' :: after :: rest =>
    if isFlank before && isFlank after then some (after :: rest) else none
  | _ => none

/-- The texts before and after the first colon with a flank on either side. -/
def cutAtColon : List Char → Option (List Char × List Char)
  | [] => none
  | c :: rest =>
    match afterFlankedColon c rest with
    | some after => some ([c], after)
    | none => (cutAtColon rest).map fun (before, after) => (c :: before, after)

/-- The header of a condition that starts at the first parenthesis. -/
def conditionalOf (name condition : List Char) : Except Fault Header :=
  if (trim name).isEmpty then .error .missingName
  else
    match Condition.parseChars condition with
    | .error error => .error (.condition error)
    | .ok condition => .ok (.conditional (String.ofList (trim name)) condition)

/-- The header of a text without parentheses. The name of a parent ends at any
further colon. -/
def simpleOf (raw : List Char) : Except Fault Header :=
  match cutAtColon raw with
  | none => .ok (.plain (String.ofList (trim raw)))
  | some (child, parent) =>
    if (trim child).isEmpty then .error .missingChild
    else
      .ok (.inherit (String.ofList (trim child))
        (String.ofList (trim (parent.takeWhile (· != ':')))))

/-- The number of bytes of a text in UTF-8. -/
def byteLength (text : List Char) : Nat :=
  (String.ofList text).utf8ByteSize

/-- Reads a header. -/
def ofChars (raw : List Char) : Except Fault Header :=
  if '(' ∈ raw then
    conditionalOf (raw.takeWhile (· != '(')) (raw.dropWhile (· != '('))
  else if ')' ∈ raw then
    .error (.unopenedParenthesis (byteLength (raw.takeWhile (· != ')'))))
  else simpleOf raw

/-- Reads a header. -/
def parse (raw : String) : Except Error Header :=
  match ofChars raw.toList with
  | .error fault => .error ⟨raw, fault⟩
  | .ok header => .ok header

end Header

end LayeredIni
