/-
# Reading documents into trees

A document is read in a context: the separator of its dotted keys, and the
scope that the conditions of its headers see. Its sections are placed into an
initially empty tree one after the other.
-/

import LayeredIni.Document.Section
import LayeredIni.Resolution
import LayeredIni.Tree.Path

namespace LayeredIni

open LayeredIni.Text

/-- Why a document has no tree. -/
inductive ParseError
  /-- A line cannot be read. -/
  | malformed (error : Document.Error)
  /-- A header cannot be read. -/
  | invalidHeader (error : Header.Error)
deriving DecidableEq, Repr

/-- The wording of the error. -/
def ParseError.message : ParseError → String
  | malformed error => "malformed INI input: " ++ error.message
  | invalidHeader error => error.message

/-- What the reading of a document depends on beside its text. -/
structure Context where
  /-- The text between the segments of a key, empty if keys are not split. -/
  separator : String := "."
  /-- The names that conditions see. -/
  scope : Scope := Scope.empty

namespace Context

/-- The node that the body of a section makes of the tree prepared for it. -/
def bodyNode (context : Context) (prepared : Tree) : Document.Body → Node
  | .scalar value => .scalar (trimmed value)
  | .entries values => .tree (prepared.writeAll context.separator values)

/-- Places a section into a tree, unless its header says that it does not count. -/
def place (context : Context) (tree : Tree) (part : Document.Section) :
    Except Header.Error Tree :=
  match tree.resolve context.scope part.header with
  | .error error => .error error
  | .ok (resolution, prepared) =>
    match resolution.key? with
    | none => .ok prepared
    | some key => .ok (prepared.insert key (context.bodyNode (prepared.child key) part.body))

/-- Places the sections of a document into an empty tree, in order. -/
def treeOfSections (context : Context) (parts : List Document.Section) :
    Except Header.Error Tree :=
  parts.foldlM context.place Tree.empty

/-- The tree of a document. -/
def parse (context : Context) (text : String) : Except ParseError Tree :=
  match Document.sections text with
  | .error error => .error (.malformed error)
  | .ok parts =>
    match context.treeOfSections parts with
    | .error error => .error (.invalidHeader error)
    | .ok tree => .ok tree

variable {context : Context} {text : String}

theorem place_of_parse_error {part : Document.Section} {tree : Tree} {error : Header.Error}
    (h : Header.parse part.header = .error error) : context.place tree part = .error error := by
  rw [place, Tree.resolve_of_parse_error h]

theorem parse_of_sections {parts : List Document.Section}
    (h : Document.sections text = .ok parts) :
    context.parse text = (context.treeOfSections parts).mapError .invalidHeader := by
  simp only [parse, h]
  cases context.treeOfSections parts <;> rfl

theorem parse_of_sections_error {error : Document.Error}
    (h : Document.sections text = .error error) :
    context.parse text = .error (.malformed error) := by
  rw [parse, h]

end Context

end LayeredIni
