import EscapeRoom.Files.Disk
import EscapeRoom.Ordered.Map
import EscapeRoom.Text.Utf8

/-!
# A file system

The file system is a map from places to files and directories.  A path is walked name by name
through directories that are there; relative paths start at the working directory.  There are no
links: what stands under a name, be it that of a temporary file, is the file or directory itself.

* `FileSystem.locate` — the place that a path leads to.
* `FileSystem.disk` — the operations on files.
-/

namespace EscapeRoom

/-- A file with its content, or a directory. -/
inductive FileNode
  | file (content : List UInt8)
  | directory
  deriving DecidableEq, Repr

/-- A place: the names from the working directory, or from the root after a name `/`. -/
abbrev FilePlace := List String

/-- Places are ordered name by name. -/
instance : LE FilePlace := List.instLE

instance : DecidableLT FilePlace := fun a b => List.decidableLT a b

/-- Files and directories at their places. -/
structure FileSystem where
  nodes : OrderedMap FilePlace FileNode
  deriving DecidableEq

namespace FileSystem

def empty : FileSystem := ⟨.empty⟩

instance : Inhabited FileSystem := ⟨empty⟩

/-- The places that are directories always. -/
def isTop (place : FilePlace) : Bool := place == [] || place == ["/"]

def at? (fs : FileSystem) (place : FilePlace) : Option FileNode :=
  if isTop place then some .directory else fs.nodes.get? place

def isDirectory (fs : FileSystem) (place : FilePlace) : Bool := fs.at? place == some .directory

/-- Puts a file or directory at a place. -/
def put (fs : FileSystem) (place : FilePlace) (node : FileNode) : FileSystem :=
  ⟨fs.nodes.insert place node⟩

def remove (fs : FileSystem) (place : FilePlace) : FileSystem :=
  ⟨.ofList (fs.nodes.entries.filter fun e => e.1 != place)⟩

/-- The place one step towards the top. -/
def above (place : FilePlace) : FilePlace := if isTop place then place else place.dropLast

/-- The longest name, in octets. -/
def nameLimit : Nat := 255

/-- Whether there can be a file of that name. -/
def isName (name : String) : Bool :=
  !name.toList.contains '\x00' && (Text.Utf8.encode name.toList).length ≤ nameLimit

/-- Where a path starts. -/
def origin (p : Path) : FilePlace := if p.isAbsolute then ["/"] else []

/-- Walks from a place along names. -/
def walk (fs : FileSystem) (place : FilePlace) : List String → Option FilePlace
  | [] => some place
  | name :: rest =>
      if !fs.isDirectory place || !isName name then none
      else if name = ".." then fs.walk (above place) rest
      else fs.walk (place ++ [name]) rest

/-- The place that a path leads to; there may be nothing. -/
def locate (fs : FileSystem) (p : Path) : Option FilePlace :=
  if p.text.isEmpty then none else fs.walk (origin p) p.names

/-- What a path leads to. -/
def find? (fs : FileSystem) (p : Path) : Option FileNode :=
  ((fs.locate p).bind fs.at?).filter fun node => !p.wantsDirectory || node == .directory

/-- The content of the file that a path leads to. -/
def content? (fs : FileSystem) (p : Path) : Option (List UInt8) :=
  match fs.find? p with
  | some (.file content) => some content
  | _ => none

/-- Makes the directories along names, starting at a place. -/
def makeDirectories (fs : FileSystem) (place : FilePlace) : List String → Option FileSystem
  | [] => some fs
  | name :: rest =>
      if !isName name then none
      else if name = ".." then fs.makeDirectories (above place) rest
      else
        let next := place ++ [name]
        match fs.at? next with
        | some .directory => fs.makeDirectories next rest
        | some (.file _) => none
        | none => (fs.put next .directory).makeDirectories next rest

/-- Makes the directory of a path and those above it. -/
def createDirectories? (fs : FileSystem) (p : Path) : Option FileSystem :=
  fs.makeDirectories (origin p) p.names

/-- Where a file can be written. -/
def writable (fs : FileSystem) (p : Path) : Option FilePlace :=
  if p.wantsDirectory then none
  else (fs.locate p).filter fun place => !fs.isDirectory place

def write? (fs : FileSystem) (p : Path) (content : List UInt8) : Option FileSystem :=
  (fs.writable p).map fun place => fs.put place (.file content)

/-- Gives a file another name. -/
def rename? (fs : FileSystem) (source target : Path) : Option FileSystem := do
  let content ← fs.content? source
  let origin ← fs.locate source
  let place ← fs.writable target
  return (fs.remove origin).put place (.file content)

/-- Carries out an operation that may fail and then changes nothing. -/
def attempt {α : Type} (failure success : α) (f : FileSystem → Option FileSystem) :
    StateM FileSystem α := fun fs =>
  match f fs with
  | some after => (success, after)
  | none => (failure, fs)

/-- The operations on files. -/
def disk : Disk (StateM FileSystem) where
  isPresent p := fun fs => ((fs.find? p).isSome, fs)
  read p := fun fs => (fs.content? p, fs)
  createDirectories p := attempt false true fun fs => fs.createDirectories? p
  write p content := attempt (.error .openFile) (.ok ()) fun fs => fs.write? p content
  rename source target := attempt false true fun fs => fs.rename? source target

def files (fs : FileSystem) : List (FilePlace × List UInt8) :=
  fs.nodes.entries.filterMap fun e =>
    match e.2 with
    | .file content => some (e.1, content)
    | .directory => none

end FileSystem

end EscapeRoom
