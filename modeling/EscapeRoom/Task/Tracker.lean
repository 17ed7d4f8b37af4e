import EscapeRoom.Task.State

/-!
# Following a level to its end

A tracker collects the flags of one level and notices once that all required tasks are done.

* `Tracker.record` — a signal from the player's own session.
* `Tracker.mergeRemote` — flags from the progress store.
* `Transition.completed` — the answer of the one call that finishes the level.
-/

namespace EscapeRoom

/-- Whether a level is finished. -/
inductive Phase
  | incomplete
  | complete
  deriving DecidableEq, Repr

/-- What a change to the flags meant for the level. -/
inductive Transition
  | unchanged
  | completed
  deriving DecidableEq, Repr

/-- The flags of a level and whether its end was noticed. -/
structure Tracker where
  level : Level
  tasks : TaskState
  phase : Phase
  deriving DecidableEq

namespace Tracker

/-- A level of which nothing is done. -/
def new (level : Level) : Tracker := ⟨level, .forLevel level, .incomplete⟩

/-- Whether the level is finished. -/
def isComplete (t : Tracker) : Bool := t.phase == .complete

/-- Notices the end of the level, unless that happened before. -/
def advance (t : Tracker) : Transition × Tracker :=
  match t.phase with
  | .complete => (.unchanged, t)
  | .incomplete =>
      if t.tasks.allDone t.level.requiredTasks then (.completed, { t with phase := .complete })
      else (.unchanged, t)

/-- Takes a signal from the player's own session. -/
def record (t : Tracker) (signal : TaskSignal) : Transition × Tracker :=
  { t with tasks := t.tasks.set signal.task signal.completed }.advance

/-- Takes the flags that the progress store reports; an unset flag there clears none here. -/
def mergeRemote (t : Tracker) (remote : TaskState) : Transition × Tracker :=
  { t with tasks := t.tasks.merge remote }.advance

end Tracker

end EscapeRoom
