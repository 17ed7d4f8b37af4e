import EscapeRoom.Ordered.Map
import EscapeRoom.Task.Level

/-!
# Which tasks are done

A task state gives each known task a flag.  Flags are only ever raised: setting and merging are
logical disjunctions, so updates may arrive in any order and any number of times.

* `TaskState.set`, `TaskState.merge` — raising one flag, or all the flags of another state.
* `TaskState.get?_set` — a state after one flag was set.
* `TaskState.isDone` — whether a task is known and done.
* `LevelRecord` — what a store keeps about a player in a level.
* `Progress`, `Progress.of` — what it reports: a level is finished when its required tasks are done.
-/

namespace EscapeRoom

/-- Something that happened to a task. -/
structure TaskSignal where
  task : String
  completed : Bool
  deriving DecidableEq, Repr

def TaskSignal.done (task : String) : TaskSignal := ⟨task, true⟩

/-- The flags of the tasks of one level. -/
structure TaskState where
  flags : OrderedMap String Bool
  deriving DecidableEq

namespace TaskState

/-- No task is known. -/
def empty : TaskState := ⟨.empty⟩

instance : Inhabited TaskState := ⟨empty⟩

/-- The flag of a task, if the task is known. -/
def get? (s : TaskState) (task : String) : Option Bool := s.flags.get? task

/-- Whether a task is done; an unknown task is not. -/
def isDone (s : TaskState) (task : String) : Bool := (s.get? task).getD false

/-- Raises the flag of a task, or makes the task known. -/
def set (s : TaskState) (task : String) (completed : Bool) : TaskState :=
  ⟨s.flags.insert task (s.isDone task || completed)⟩

/-- Whether setting a flag changes it from unset to set. -/
def raises (s : TaskState) (task : String) (completed : Bool) : Bool :=
  completed && !s.isDone task

/-- Raises the flags of a list of tasks. -/
def setAll (s : TaskState) (entries : List (String × Bool)) : TaskState :=
  entries.foldl (fun s e => s.set e.1 e.2) s

/-- Raises all the flags of another state. -/
def merge (s t : TaskState) : TaskState := s.setAll t.flags.entries

/-- The state of a list of flags, a repeated task being done if one of its flags is set. -/
def ofList (entries : List (String × Bool)) : TaskState := empty.setAll entries

/-- The required tasks of a level, none of them done. -/
def forLevel (level : Level) : TaskState := ofList (level.requiredTasks.map (·, false))

/-- The flags in the order of the task names. -/
def toList (s : TaskState) : List (String × Bool) := s.flags.entries

def allDone (s : TaskState) (tasks : List String) : Bool := tasks.all s.isDone

/-- The flags after one was set. -/
theorem get?_set (s : TaskState) (task q : String) (completed : Bool) :
    (s.set task completed).get? q =
      if q = task then some (s.isDone task || completed) else s.get? q :=
  OrderedMap.get?_insert ..

/-- The tasks that are done after one was set. -/
theorem isDone_set (s : TaskState) (task q : String) (completed : Bool) :
    (s.set task completed).isDone q = (s.isDone q || (completed && q == task)) := by
  unfold isDone
  rw [get?_set]
  by_cases h : q = task
  · subst h
    simp [isDone]
  · simp [h]

end TaskState

/-! ### What stores keep and report -/

/-- The flags of a player in a level and the manifest that was last accepted. -/
structure LevelRecord where
  tasks : TaskState
  manifest : Option String
  deriving DecidableEq

/-- The record of a level in which nothing is done. -/
def LevelRecord.new (level : Level) : LevelRecord := ⟨.forLevel level, none⟩

/-- A record without any flag. -/
def LevelRecord.empty : LevelRecord := ⟨.empty, none⟩

/-- The flags of a level, whether it is finished, and the manifest that was last accepted. -/
structure Progress where
  tasks : TaskState
  done : Bool
  manifest : Option String
  deriving DecidableEq

/-- The report on some flags of a level. -/
def Progress.of (level : Level) (tasks : TaskState) (manifest : Option String) : Progress :=
  ⟨tasks, tasks.allDone level.requiredTasks, manifest⟩

end EscapeRoom
