/-
# Documents as lists of sections

Entries before the first header stand for themselves and form a section each.
A header opens a section that collects the entries after it; a header that
repeats an earlier one verbatim opens that earlier section again.

`sections` reads a whole document. Whether it can be read, and which line is
reported if not, is settled line by line before any section is formed.
-/

import LayeredIni.Bindings
import LayeredIni.Document.Line

namespace LayeredIni.Document

/-- What stands in a section. -/
inductive Body
  /-- The value of an entry that stands before every header. -/
  | scalar (value : String)
  /-- The entries after a header, a repeated key with its last value. -/
  | entries (values : Bindings String)
deriving DecidableEq, Repr

/-- A section as the document writes it. -/
structure Section where
  /-- The text between the brackets, or the key of an entry that stands for itself. -/
  header : String
  /-- The line of the first appearance, counted from 1. -/
  line : Nat
  /-- What stands in the section. -/
  body : Body
deriving DecidableEq, Repr

/-- A line that cannot be read. -/
structure Error where
  /-- The line, counted from 1. -/
  line : Nat
  /-- What is wrong with it. -/
  fault : LineFault
deriving DecidableEq, Repr

/-- The wording of the error. -/
def Error.message (error : Error) : String :=
  "line " ++ toString error.line ++ ": " ++ error.fault.message

/-- Whether a bracketed header `raw` opens this section again. -/
def Section.isOpenedBy (raw : String) (part : Section) : Bool :=
  match part.body with
  | .scalar _ => false
  | .entries _ => part.header == raw

/-- Adds an entry to the section if the header `raw` opens it. -/
def Section.addEntry (raw key value : String) (part : Section) : Section :=
  match part.body with
  | .scalar _ => part
  | .entries values =>
    if part.header = raw then { part with body := .entries (values.insert key value) } else part

/-- The sections found so far, and the header of the one that is open. -/
structure Draft where
  /-- The sections in the order of their first appearance. -/
  sections : List Section
  /-- The header that entries belong to at this point. -/
  current : Option String

/-- A draft before the first line. -/
def Draft.empty : Draft :=
  ⟨[], none⟩

/-- Takes one numbered line into the draft. -/
def Draft.add (draft : Draft) : Nat × Line → Draft
  | (_, .remark) => draft
  | (number, .header raw) =>
    if draft.sections.any (·.isOpenedBy raw) then { draft with current := some raw }
    else ⟨draft.sections ++ [⟨raw, number, .entries []⟩], some raw⟩
  | (number, .entry key value) =>
    match draft.current with
    | none => { draft with sections := draft.sections ++ [⟨key, number, .scalar value⟩] }
    | some raw => { draft with sections := draft.sections.map (·.addEntry raw key value) }

/-- The sections that a list of numbered lines forms. -/
def assemble (lines : List (Nat × Line)) : List Section :=
  (lines.foldl Draft.add Draft.empty).sections

/-- Classifies a numbered line. -/
def readLine (text : List Char) (number : Nat) : Except Error (Nat × Line) :=
  match Line.read text with
  | .ok line => .ok (number, line)
  | .error fault => .error ⟨number, fault⟩

/-- The lines of a text with their numbers and what each of them is, or the
first line that cannot be read. -/
def readLines (text : String) : Except Error (List (Nat × Line)) :=
  ((text.toList.splitOn '\n').zipIdx 1).mapM fun (line, number) => readLine line number

/-- The sections of a document. -/
def sections (text : String) : Except Error (List Section) :=
  (readLines text).map assemble

end LayeredIni.Document
