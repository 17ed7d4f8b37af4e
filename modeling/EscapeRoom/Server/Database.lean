import EscapeRoom.Message
import EscapeRoom.Task.State

/-!
# The progress database

The server keeps the registered players, and for each player a record under the number of each
level.  A record lists only what was reported; the required tasks are added when it is read.

* `Database.register`, `Database.update`, `Database.recordManifest` — the changes.
* `Database.progress` — the progress of a player in a level.
-/

namespace EscapeRoom

/-- Registered players and their records. -/
structure Database where
  players : OrderedSet String
  records : OrderedMap String (OrderedMap UInt8 LevelRecord)
  deriving DecidableEq

namespace Database

/-- Nobody is known. -/
def empty : Database := ⟨.empty, .empty⟩

instance : Inhabited Database := ⟨empty⟩

def isRegistered (db : Database) (player : String) : Bool := db.players.contains player

def register (db : Database) (player : String) : Database :=
  { db with players := db.players.insert player }

def record? (db : Database) (player : String) (level : Level) : Option LevelRecord :=
  (db.records.get? player).bind fun levels => levels.get? level.number

/-- Changes the record of a player and a level. -/
def modifyRecord (db : Database) (player : String) (level : Level)
    (f : LevelRecord → LevelRecord) : Database :=
  let levels := (db.records.get? player).getD .empty
  let record := (levels.get? level.number).getD .empty
  { db with records := db.records.insert player (levels.insert level.number (f record)) }

/-- The progress of a player in a level; every required task is listed. -/
def progress (db : Database) (player : String) (level : Level) : Progress :=
  let record := (db.record? player level).getD .empty
  .of level ((TaskState.forLevel level).merge record.tasks) record.manifest

def report (db : Database) (player : String) (level : Level) : ProgressReport :=
  ⟨player, level, db.progress player level⟩

/-- Raises a flag. -/
def update (db : Database) (player : String) (level : Level) (signal : TaskSignal) : Database :=
  db.modifyRecord player level fun r =>
    { r with tasks := r.tasks.set signal.task signal.completed }

/-- Keeps a manifest, and finishes the level. -/
def recordManifest (db : Database) (player manifest : String) : Database :=
  db.modifyRecord player .manifest fun r =>
    ⟨r.tasks.set Task.validManifest true, some manifest⟩

end Database

end EscapeRoom
