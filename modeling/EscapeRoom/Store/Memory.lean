import EscapeRoom.Store.Basic
import EscapeRoom.Task.State

/-!
# Progress in memory

A store without a server.  The record of a player and a level comes into being with the first flag
or manifest, filled with the required tasks of the level.

* `MemoryStore` — the records, the players, and every update in the order of arrival.
* `MemoryStore.store` — the four requests.
-/

namespace EscapeRoom

/-- Players and records in memory. -/
structure MemoryStore where
  players : OrderedSet String
  records : PerLevel (OrderedMap String LevelRecord)
  updates : List (String × Level × TaskSignal)
  /-- While this is set, every request fails. -/
  failing : Bool
  deriving DecidableEq

namespace MemoryStore

/-- Nobody is known and nothing is done. -/
def new : MemoryStore := ⟨.empty, ⟨.empty, .empty⟩, [], false⟩

instance : Inhabited MemoryStore := ⟨new⟩

/-- The record of a player and a level, or a new one. -/
def recordOf (s : MemoryStore) (player : String) (level : Level) : LevelRecord :=
  ((s.records.get level).get? player).getD (.new level)

/-- Changes the record of a player and a level. -/
def modifyRecord (s : MemoryStore) (player : String) (level : Level)
    (f : LevelRecord → LevelRecord) : MemoryStore :=
  { s with
    records :=
      s.records.set level ((s.records.get level).insert player (f (s.recordOf player level))) }

/-- Whether a player is known. -/
def isRegistered (s : MemoryStore) (player : String) : Bool := s.players.contains player

/-- The flags of a player in a level. -/
def tasks (s : MemoryStore) (player : String) (level : Level) : TaskState :=
  (s.recordOf player level).tasks

def progress (s : MemoryStore) (player : String) (level : Level) : Progress :=
  .of level (s.recordOf player level).tasks (s.recordOf player level).manifest

/-- Makes a player known. -/
def register (s : MemoryStore) (player : String) : MemoryStore :=
  { s with players := s.players.insert player }

/-- Raises flags without a trace among the updates. -/
def seed (s : MemoryStore) (player : String) (level : Level) (flags : List (String × Bool)) :
    MemoryStore :=
  s.modifyRecord player level fun r => { r with tasks := r.tasks.setAll flags }

/-- Raises a flag. -/
def update (s : MemoryStore) (player : String) (level : Level) (signal : TaskSignal) :
    MemoryStore :=
  { s with updates := s.updates ++ [(player, level, signal)] }.modifyRecord player level
    fun r => { r with tasks := r.tasks.set signal.task signal.completed }

/-- Keeps a manifest that passes, and finishes the level. -/
def accept (s : MemoryStore) (player manifest : String) : MemoryStore :=
  s.modifyRecord player .manifest fun r => ⟨r.tasks.set Task.validManifest true, some manifest⟩

/-- Answers a request, unless requests fail. -/
def answer {α : Type} (f : MemoryStore → α × MemoryStore) :
    StateM MemoryStore (Except StoreError α) := fun s =>
  if s.failing then (.error .unavailable, s)
  else
    let (a, t) := f s
    (.ok a, t)

/-- The requests to a store in memory. -/
def store : ProgressStore (StateM MemoryStore) where
  register player := answer fun s => ((), s.register player)
  fetch player level := answer fun s => (s.progress player level, s)
  update player level signal :=
    answer fun s =>
      let t := s.update player level signal
      (t.progress player level, t)
  validate player manifest :=
    answer fun s =>
      let verdict := checkManifest manifest
      (verdict, if verdict.ok then s.accept player manifest else s)

end MemoryStore

end EscapeRoom
