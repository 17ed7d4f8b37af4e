import EscapeRoom.Task.State
import EscapeRoom.Task.Tracker
import EscapeRoom.Terminal.Command

/-!
# The container level

The level is a terminal session with a tracker of its tasks.  It takes lines that the player types
and flags that the progress store reports, one at a time and in any order.

* `DockerLevel.handleLine` — a line: what is shown, and the signals to report.
* `DockerLevel.handleReport` — flags from the store: the session is brought up to them.
* `Frame` — what is shown for either.
-/

namespace EscapeRoom

/-- What is shown for a line or a report. -/
structure Frame where
  lines : List String
  screen : Screen
  /-- The tasks that became done. -/
  completedTasks : List String
  /-- Whether the level became finished. -/
  celebrate : Bool
  deriving DecidableEq, Repr

/-- Nothing is shown. -/
def Frame.none : Frame := ⟨[], .append, [], false⟩

/-- The tasks that are done in the second state and not in the first. -/
def TaskState.newlyDone (before after : TaskState) : List String :=
  (after.toList.filter fun e => e.2 && !before.isDone e.1).map Prod.fst

/-- The state of the container level. -/
structure DockerLevel where
  session : Session
  tracker : Tracker
  deriving DecidableEq

/-- What a line leads to. -/
structure LineOutcome where
  frame : Frame
  /-- What has to be reported to the progress store. -/
  signals : List TaskSignal
  level : DockerLevel
  deriving DecidableEq

namespace DockerLevel

/-- A level in which nothing has happened. -/
def new : DockerLevel := ⟨.new, .new .docker⟩

instance : Inhabited DockerLevel := ⟨new⟩

/-- Whether the level is finished. -/
def isComplete (l : DockerLevel) : Bool := l.tracker.isComplete

/-- Records signals one after the other, and whether one of them finishes the level. -/
def recordAll (tracker : Tracker) : List TaskSignal → Bool × Tracker
  | [] => (false, tracker)
  | signal :: rest =>
      let (transition, tracker) := tracker.record signal
      let (celebrate, tracker) := recordAll tracker rest
      (transition == .completed || celebrate, tracker)

/-- Takes a line. -/
def handleLine (l : DockerLevel) (line : String) (now : TimeOfDay) : LineOutcome :=
  let (reply, session) := l.session.interpret line now
  let (celebrate, tracker) := recordAll l.tracker reply.signals
  { frame :=
      ⟨reply.lines, reply.screen, l.tracker.tasks.newlyDone tracker.tasks, celebrate⟩
    signals := reply.signals
    level := ⟨session, tracker⟩ }

/-- Takes flags that the progress store reports. -/
def handleReport (l : DockerLevel) (remote : TaskState) (now : TimeOfDay) : Frame × DockerLevel :=
  let (transition, tracker) := l.tracker.mergeRemote remote
  (⟨[], .append, l.tracker.tasks.newlyDone tracker.tasks, transition == .completed⟩,
    ⟨l.session.restore tracker.tasks now, tracker⟩)

end DockerLevel

end EscapeRoom
