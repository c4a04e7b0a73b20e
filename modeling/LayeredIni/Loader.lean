/-
# Loading a configuration from several sources

Each source is read and parsed by itself, and the trees are laid over each
other in the order of the sources. The first source that fails decides how
loading fails.
-/

import LayeredIni.Context
import LayeredIni.Files
import LayeredIni.Schema.Decode
import LayeredIni.Tree.Overlay

namespace LayeredIni

/-- Where a document comes from. -/
inductive Source
  /-- A text that is given with a name for diagnostics. -/
  | inline (name text : String)
  /-- A file, which must be there if it is required. -/
  | file (path : String) (required : Bool)
deriving DecidableEq, Repr

/-- How diagnostics speak of a source. -/
def Source.name : Source → String
  | inline name _ => name
  | file path _ => path

/-- Why a file that is there cannot be read. -/
inductive Unreadable
  | directory
  | throughFile
  | notUtf8
deriving DecidableEq, Repr

/-- The wording of the reason. -/
def Unreadable.message : Unreadable → String
  | directory => "Is a directory (os error 21)"
  | throughFile => "Not a directory (os error 20)"
  | notUtf8 => "stream did not contain valid UTF-8"

/-- Why a configuration cannot be loaded. -/
inductive LoadError
  /-- A required file is not there. -/
  | missingFile (path : String)
  /-- A file cannot be read. -/
  | unreadableFile (path : String) (reason : Unreadable)
  /-- The text of a source cannot be parsed. -/
  | invalidSource (name : String) (error : ParseError)
  /-- The configuration is not a value of the schema. -/
  | undecodable (error : DecodeError)

/-- The wording of the error. -/
def LoadError.message : LoadError → String
  | missingFile path => "required config file not found: " ++ path
  | unreadableFile path reason =>
    "failed to read config file '" ++ path ++ "': " ++ reason.message
  | invalidSource name error =>
    "failed to parse config '" ++ name ++ "': " ++ error.message
  | undecodable error => "failed to deserialize config: " ++ error.message ++ "\n"

/-- Any failure that the library reports, with what was being done. -/
inductive Failure
  /-- A configuration could not be loaded. -/
  | load (error : LoadError)
  /-- A document could not be parsed. -/
  | parse (error : ParseError)

/-- The wording of the failure. -/
def Failure.message : Failure → String
  | load error => "configuration error: " ++ error.message
  | parse error => "INI error: " ++ error.message

/-- The text of a source, none for an optional file that is not there. -/
def Source.read (files : FileSystem) : Source → Except LoadError (Option String)
  | inline _ text => .ok (some text)
  | file path required =>
    match files path with
    | .missing => if required then .error (.missingFile path) else .ok none
    | .directory => .error (.unreadableFile path .directory)
    | .throughFile => .error (.unreadableFile path .throughFile)
    | .file contents =>
      match String.fromUTF8? contents with
      | none => .error (.unreadableFile path .notUtf8)
      | some text => .ok (some text)

/-- The tree of a source, none for an optional file that is not there. -/
def Source.tree? (files : FileSystem) (context : Context) (source : Source) :
    Except LoadError (Option Tree) :=
  match source.read files with
  | .error error => .error error
  | .ok none => .ok none
  | .ok (some text) =>
    match context.parse text with
    | .error error => .error (.invalidSource source.name error)
    | .ok tree => .ok (some tree)

/-- Lays the tree of a source over a base. -/
def Source.overlayOnto (files : FileSystem) (context : Context) (base : Tree)
    (source : Source) : Except LoadError Tree :=
  match source.tree? files context with
  | .error error => .error error
  | .ok none => .ok base
  | .ok (some layer) => .ok (base.overlay layer)

/-- Loads the sources into one tree. -/
def load (files : FileSystem) (context : Context) (sources : List Source) :
    Except LoadError Tree :=
  sources.foldlM (Source.overlayOnto files context) Tree.empty

/-- Loads the sources and reads the tree as a value of a schema. -/
def loadAs (type : Schema) (files : FileSystem) (context : Context) (sources : List Source) :
    Except LoadError Value :=
  match load files context sources with
  | .error error => .error error
  | .ok tree =>
    match tree.decode type with
    | .error error => .error (.undecodable error)
    | .ok value => .ok value

end LayeredIni
