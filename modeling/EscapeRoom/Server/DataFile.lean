import EscapeRoom.Files.Disk
import EscapeRoom.Server.Database
import EscapeRoom.Text.Utf8

/-!
# The data file

The database is kept in a JSON file that is replaced as a whole.

* `Database.codec` — the database as JSON.
* `Database.fileText` — the content of the file.
* `Database.load`, `Database.save` — reading and replacing the file.
-/

namespace EscapeRoom

open Json (Codec Fields)

/-- A record; a manifest that is missing is left out. -/
def LevelRecord.codec : Codec LevelRecord :=
  .record (((Fields.field "tasks" TaskState.codec).and
      (Fields.optionalField "manifest" .string)).iso
    (fun p => ⟨p.1, p.2⟩) (fun r => (r.tasks, r.manifest)))

/-- Why a data file was not read or written. -/
inductive DataFault
  | read (path : Path)
  | parse (path : Path)
  | create (path : Path)
  | write (path : Path)
  | sync (path : Path)
  | rename (temporary target : Path)
  deriving DecidableEq, Repr

/-- The text of a fault. -/
def DataFault.message : DataFault → String
  | read path => "read " ++ path.text
  | parse path => "parse " ++ path.text
  | create path => "create " ++ path.text
  | write path => "write " ++ path.text
  | sync path => "sync " ++ path.text
  | rename temporary target => "rename " ++ temporary.text ++ " -> " ++ target.text

/-- The fault of a step in replacing a data file. -/
def DataFault.ofReplace : ReplaceFault → DataFault
  | .createDirectories directory => create directory
  | .write .openFile temporary => create temporary
  | .write .fill temporary => write temporary
  | .write .sync temporary => sync temporary
  | .rename temporary target => rename temporary target

namespace Database

/-- The database: the players, and the records under the names of players and the numbers of
levels. -/
def codec : Codec Database :=
  .record (((Fields.field "players" .stringSet).and
      (Fields.field "progress" (.map (.octetMap LevelRecord.codec)))).iso
    (fun p => ⟨p.1, p.2⟩) (fun db => (db.players, db.records)))

/-- The content of the data file. -/
def fileText (db : Database) : String := String.ofList ((codec.encode db).pretty ++ ['\n'])

/-- The database of a data file's content. -/
def ofFileText? (text : String) : Option Database := (codec.read text).toOption

variable {m : Type → Type} [Monad m]

/-- The database of a data file; without the file, the empty one. -/
def load (disk : Disk m) (path : Path) : m (Except DataFault Database) := do
  if ← disk.isPresent path then
    match (← disk.read path).bind Text.Utf8.decode? with
    | none => return .error (.read path)
    | some text =>
        match ofFileText? (String.ofList text) with
        | none => return .error (.parse path)
        | some db => return .ok db
  else return .ok empty

/-- Replaces the data file. -/
def save (disk : Disk m) (path : Path) (db : Database) : m (Except DataFault Unit) := do
  match ← disk.replace path "json.tmp" (Text.Utf8.encode db.fileText.toList) with
  | .error fault => return .error (.ofReplace fault)
  | .ok () => return .ok ()

end Database

end EscapeRoom
