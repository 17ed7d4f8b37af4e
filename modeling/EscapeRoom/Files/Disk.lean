import EscapeRoom.Files.Path

/-!
# Keeping files

Files are reached through a few operations, each of which may fail.  A file is replaced by way of a
temporary one beside it, so that it holds either its old content or the new one.

* `Disk` — the operations.
* `Disk.replace` — replacing a file.
* `ReplaceFault` — the step that failed.
-/

namespace EscapeRoom

/-- Why a file was not written. -/
inductive WriteFault
  /-- It could not be opened for writing. -/
  | openFile
  /-- Its content could not be written. -/
  | fill
  /-- Its content could not be made lasting. -/
  | sync
  deriving DecidableEq, Repr

/-- What can be done with files.  Failure is `none`, `false` or a fault. -/
structure Disk (m : Type → Type) where
  /-- Whether there is a file or a directory. -/
  isPresent : Path → m Bool
  /-- The content of a file. -/
  read : Path → m (Option (List UInt8))
  /-- Makes a directory and those above it, unless they are there. -/
  createDirectories : Path → m Bool
  /-- Writes a file, which may be there already. -/
  write : Path → List UInt8 → m (Except WriteFault Unit)
  /-- Gives a file another name, in place of the file of that name. -/
  rename : Path → Path → m Bool

/-- The step that failed when a file was replaced. -/
inductive ReplaceFault
  | createDirectories (directory : Path)
  | write (fault : WriteFault) (temporary : Path)
  | rename (temporary target : Path)
  deriving DecidableEq, Repr

namespace Disk

variable {m : Type → Type} [Monad m]

/-- Makes the directory of a file; a path of one name has none.  The error is the directory that
cannot be made. -/
def prepare (d : Disk m) (path : Path) : m (Except Path Unit) :=
  match path.parent? with
  | none => return .ok ()
  | some parent =>
      if parent.text.isEmpty then return .ok ()
      else do
        if ← d.createDirectories parent then return .ok ()
        else return .error parent

/-- Replaces a file by way of its sibling with another extension. -/
def replace (d : Disk m) (path : Path) (extension : String) (content : List UInt8) :
    m (Except ReplaceFault Unit) := do
  match ← d.prepare path with
  | .error directory => return .error (.createDirectories directory)
  | .ok () =>
      let temporary := path.withExtension extension
      match ← d.write temporary content with
      | .error fault => return .error (.write fault temporary)
      | .ok () =>
          if ← d.rename temporary path then return .ok ()
          else return .error (.rename temporary path)

end Disk

end EscapeRoom
