/-
# Files as a loader sees them

A loader knows a file system only by its answers to requests for the contents
of a path. `Directory` gives the answers of a file system with known contents.
-/

namespace LayeredIni

/-- What a file system answers to a request for the contents of a path. -/
inductive FileAnswer
  /-- Nothing is there. -/
  | missing
  /-- A directory is there. -/
  | directory
  /-- The path leads through something that is no directory. -/
  | throughFile
  /-- A file with these contents is there. -/
  | file (contents : ByteArray)

/-- A file system, known by its answers. -/
abbrev FileSystem := String → FileAnswer

/-- A directory with everything below it. Each path in it is given by its
components; the directories on the way to a path exist too. -/
structure Directory where
  /-- The files, the latest first. -/
  files : List (List String × ByteArray)
  /-- Directories that exist whether or not there is anything in them. -/
  directories : List (List String)

namespace Directory

/-- The directory with nothing in it. -/
def empty : Directory :=
  ⟨[], []⟩

/-- The components of a path, as they stand between its slashes. -/
def components (path : String) : List String :=
  (path.toList.splitOn '/').map String.ofList

/-- Whether a component leads nowhere else. -/
def isVoid (component : String) : Bool :=
  component == "" || component == "."

/-- Puts a file under a path, in place of any file there. -/
def addFile (directory : Directory) (path : String) (contents : ByteArray) : Directory :=
  { directory with
    files := ((components path).filter (!isVoid ·), contents) :: directory.files }

/-- Makes a directory under a path. -/
def addDirectory (directory : Directory) (path : String) : Directory :=
  { directory with
    directories := (components path).filter (!isVoid ·) :: directory.directories }

/-- Whether there is a directory at the end of a list of components. -/
def hasDirectory (directory : Directory) (path : List String) : Bool :=
  directory.files.any (fun (file, _) => path.isPrefixOf file) ||
    directory.directories.any fun other => path.isPrefixOf other

/-- The directory above a place. A place is a list of components below this
directory, or none of those if it lies outside. -/
def parent : Option (List String) → Option (List String)
  | none => none
  | some [] => none
  | some (first :: rest) => some (first :: rest).dropLast

/-- Follows components from a place. Every component but the last must lead to
a directory, and nothing outside is known but that it is there. -/
def follow (directory : Directory) : Option (List String) → List String → FileAnswer
  | _, [] => .directory
  | place, component :: rest =>
    if isVoid component then directory.follow place rest
    else if component == ".." then directory.follow (parent place) rest
    else
      match place with
      | none => .missing
      | some here =>
        match directory.files.lookup (here ++ [component]) with
        | some contents => if rest.isEmpty then .file contents else .throughFile
        | none =>
          if directory.hasDirectory (here ++ [component]) then
            directory.follow (some (here ++ [component])) rest
          else .missing

/-- The file system whose relative paths start in this directory. The empty
path leads nowhere, and a path that starts with a slash leads outside. -/
def fileSystem (directory : Directory) : FileSystem := fun path =>
  match path.toList with
  | [] => .missing
  | '/' :: _ => directory.follow none (components path)
  | _ => directory.follow (some []) (components path)

end Directory

end LayeredIni
