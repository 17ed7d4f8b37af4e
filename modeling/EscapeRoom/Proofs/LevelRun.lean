import EscapeRoom.Proofs.SessionStep
import EscapeRoom.Room.Play

/-!
# Runs of the container level

A run hands lines and events to the level, in any order.  Lines record signals and events merge
flags, so in either case the tasks of the tracker are joined with something, and the session is what
the line or `Session.restore` makes of it.

* `Tracker.completed_advance`, `Tracker.IsAccurate` — when a tracker reports the end of its level.
* `LevelInput`, `DockerLevel.take`, `DockerLevel.run` — what a level takes, one step, and a run.
* `DockerLevel.handleLine_tasks`, `DockerLevel.handleEvent_tasks` — the tasks after a step.
* `DockerLevel.IsTracked` — the level is finished when its tasks are done; every step keeps that.
* `DockerLevel.run_induction` — what holds at first and is kept by every step holds after every run.
-/

namespace EscapeRoom

namespace Tracker

variable (t : Tracker)

@[simp] theorem advance_tasks : t.advance.2.tasks = t.tasks := by
  unfold advance
  split
  · rfl
  · split <;> rfl

@[simp] theorem advance_level : t.advance.2.level = t.level := by
  unfold advance
  split
  · rfl
  · split <;> rfl

/-- A level is finished once all its tasks are done, and stays so. -/
theorem isComplete_advance :
    t.advance.2.isComplete = (t.isComplete || t.tasks.allDone t.level.requiredTasks) := by
  obtain ⟨level, tasks, phase⟩ := t
  cases phase with
  | complete => rfl
  | incomplete =>
      by_cases h : tasks.allDone level.requiredTasks = true
      · simp [advance, isComplete, h]
      · simp [advance, isComplete, h]

/-- A level completes with the step that finds all tasks done. -/
theorem transition_advance :
    t.advance.1 =
      if !t.isComplete && t.tasks.allDone t.level.requiredTasks then .completed
      else .unchanged := by
  obtain ⟨level, tasks, phase⟩ := t
  cases phase with
  | complete => rfl
  | incomplete =>
      cases h : tasks.allDone level.requiredTasks with
      | true => simp only [advance, isComplete, h]; rfl
      | false => simp only [advance, isComplete, h]; rfl

/-- The step that completes a level is the one that finds it unfinished and leaves it finished. -/
theorem completed_advance :
    (t.advance.1 == .completed) = (!t.isComplete && t.advance.2.isComplete) := by
  rw [transition_advance, isComplete_advance]
  cases t.isComplete <;> cases t.tasks.allDone t.level.requiredTasks <;> rfl

theorem record_tasks (signal : TaskSignal) :
    (t.record signal).2.tasks = t.tasks ⊔ .ofSignals [signal] := by
  rw [record, advance_tasks]
  exact TaskState.set_eq_sup_ofSignals t.tasks signal

theorem record_level (signal : TaskSignal) : (t.record signal).2.level = t.level := by
  rw [record, advance_level]

theorem isComplete_record (signal : TaskSignal) :
    (t.record signal).2.isComplete =
      (t.isComplete || (t.record signal).2.tasks.allDone t.level.requiredTasks) := by
  rw [record, isComplete_advance, advance_tasks]
  rfl

theorem completed_record (signal : TaskSignal) :
    ((t.record signal).1 == .completed) =
      (!t.isComplete && (t.record signal).2.isComplete) :=
  completed_advance _

theorem mergeRemote_tasks (remote : TaskState) :
    (t.mergeRemote remote).2.tasks = t.tasks ⊔ remote := by
  rw [mergeRemote, advance_tasks]
  rfl

theorem mergeRemote_level (remote : TaskState) : (t.mergeRemote remote).2.level = t.level := by
  rw [mergeRemote, advance_level]

theorem completed_mergeRemote (remote : TaskState) :
    ((t.mergeRemote remote).1 == .completed) =
      (!t.isComplete && (t.mergeRemote remote).2.isComplete) :=
  completed_advance _

/-- Whether the end of the level has been noticed exactly when all of its tasks are done. -/
def IsAccurate : Prop := t.isComplete = t.tasks.allDone t.level.requiredTasks

theorem isAccurate_new (level : Level) : (new level).IsAccurate := by
  cases level <;> rfl

variable {t}

theorem isAccurate_advance
    (h : t.isComplete = true → t.tasks.allDone t.level.requiredTasks = true) :
    t.advance.2.IsAccurate := by
  rw [IsAccurate, isComplete_advance, advance_tasks, advance_level]
  cases hcomplete : t.isComplete with
  | false => rfl
  | true => exact (h hcomplete).symm

theorem IsAccurate.record (h : t.IsAccurate) (signal : TaskSignal) :
    (t.record signal).2.IsAccurate := by
  refine isAccurate_advance fun hcomplete => TaskState.allDone_mono ?_ (h.symm.trans hcomplete)
  show t.tasks ≤ t.tasks.set signal.task signal.completed
  rw [TaskState.set_eq_sup_ofSignals]
  exact le_sup_left

theorem IsAccurate.mergeRemote (h : t.IsAccurate) (remote : TaskState) :
    (t.mergeRemote remote).2.IsAccurate := by
  refine isAccurate_advance fun hcomplete => TaskState.allDone_mono ?_ (h.symm.trans hcomplete)
  exact le_sup_left

end Tracker

/-- The flags that an event brings; a failed request brings none. -/
def SyncEvent.tasks : SyncEvent → TaskState
  | .loaded progress => progress.tasks
  | .updated progress => progress.tasks
  | .failed _ _ => ⊥

namespace DockerLevel

theorem recordAll_tasks (t : Tracker) (signals : List TaskSignal) :
    (recordAll t signals).2.tasks = t.tasks ⊔ .ofSignals signals := by
  induction signals generalizing t with
  | nil => exact (sup_bot_eq _).symm
  | cons signal rest ih =>
      show (recordAll (t.record signal).2 rest).2.tasks = _
      rw [ih, Tracker.record_tasks, TaskState.ofSignals_cons signal rest, sup_assoc]

theorem recordAll_level (t : Tracker) (signals : List TaskSignal) :
    (recordAll t signals).2.level = t.level := by
  induction signals generalizing t with
  | nil => rfl
  | cons signal rest ih =>
      show (recordAll (t.record signal).2 rest).2.level = _
      rw [ih, Tracker.record_level]

/-- A finished level stays finished. -/
theorem isComplete_recordAll_of {t : Tracker} (h : t.isComplete = true)
    (signals : List TaskSignal) : (recordAll t signals).2.isComplete = true := by
  induction signals generalizing t with
  | nil => exact h
  | cons signal rest ih =>
      refine ih (t := (t.record signal).2) ?_
      rw [Tracker.isComplete_record, h, Bool.true_or]

/-- Signals celebrate when they find the level unfinished and leave it finished. -/
theorem recordAll_celebrates (t : Tracker) (signals : List TaskSignal) :
    (recordAll t signals).1 = (!t.isComplete && (recordAll t signals).2.isComplete) := by
  induction signals generalizing t with
  | nil => exact (Bool.not_and_self t.isComplete).symm
  | cons signal rest ih =>
      show ((t.record signal).1 == .completed || (recordAll (t.record signal).2 rest).1) =
        (!t.isComplete && (recordAll (t.record signal).2 rest).2.isComplete)
      rw [ih, Tracker.completed_record]
      -- finished before the signal, finished by it, or still unfinished after it
      cases hbefore : t.isComplete with
      | true => simp [Tracker.isComplete_record, hbefore]
      | false =>
          cases hafter : (t.record signal).2.isComplete with
          | true => simp [isComplete_recordAll_of hafter]
          | false => simp

theorem isAccurate_recordAll {t : Tracker} (h : t.IsAccurate) (signals : List TaskSignal) :
    (recordAll t signals).2.IsAccurate := by
  induction signals generalizing t with
  | nil => exact h
  | cons signal rest ih => exact ih (h.record signal)

section
variable (l : DockerLevel) (line : String) (event : SyncEvent) (now : TimeOfDay)

/-- What a line leads to, from the reply to it. -/
theorem handleLine_eq :
    l.handleLine line now =
      let reply := (l.session.interpret line now).1
      let recorded := recordAll l.tracker reply.signals
      { frame :=
          ⟨reply.lines, reply.screen, l.tracker.tasks.newlyDone recorded.2.tasks, recorded.1⟩
        signals := reply.signals
        level := ⟨(l.session.interpret line now).2, recorded.2⟩ } := by
  unfold handleLine
  rcases l.session.interpret line now with ⟨reply, session⟩
  dsimp only

theorem handleLine_signals :
    (l.handleLine line now).signals = (l.session.interpret line now).1.signals := by
  rw [handleLine_eq]

/-- Lines report tasks as done, never as undone. -/
theorem handleLine_signals_completed :
    ∀ signal ∈ (l.handleLine line now).signals, signal.completed = true := by
  rw [handleLine_signals]
  exact (l.session.effect_interpret now line).signals_completed

theorem handleLine_session :
    (l.handleLine line now).level.session = (l.session.interpret line now).2 := by
  rw [handleLine_eq]

theorem handleLine_tracker :
    (l.handleLine line now).level.tracker =
      (recordAll l.tracker (l.handleLine line now).signals).2 := by
  rw [handleLine_eq]

theorem handleLine_tasks :
    (l.handleLine line now).level.tracker.tasks =
      l.tracker.tasks ⊔ .ofSignals (l.handleLine line now).signals := by
  rw [handleLine_tracker, recordAll_tasks]

theorem handleEvent_tasks :
    (l.handleEvent event now).2.tracker.tasks = l.tracker.tasks ⊔ event.tasks := by
  cases event with
  | loaded progress | updated progress => exact Tracker.mergeRemote_tasks l.tracker progress.tasks
  | failed request error => exact (sup_bot_eq _).symm

theorem handleEvent_level :
    (l.handleEvent event now).2.tracker.level = l.tracker.level := by
  cases event with
  | loaded progress | updated progress => exact Tracker.mergeRemote_level l.tracker progress.tasks
  | failed request error => rfl

/-- The session after an event: restored from the tasks, or the same when a request failed. -/
theorem handleEvent_session :
    (l.handleEvent event now).2.session =
        l.session.restore (l.handleEvent event now).2.tracker.tasks now ∨
      (l.handleEvent event now).2 = l := by
  cases event with
  | loaded progress | updated progress => exact .inl rfl
  | failed request error => exact .inr rfl

end

end DockerLevel

/-- Something that the container level takes. -/
inductive LevelInput
  /-- A line that the player typed. -/
  | line (text : String) (now : TimeOfDay)
  /-- The end of a background request. -/
  | event (event : SyncEvent) (now : TimeOfDay)
  deriving DecidableEq

namespace DockerLevel

/-- One step of a level. -/
def take (l : DockerLevel) : LevelInput → Frame × DockerLevel
  | .line text now => ((l.handleLine text now).frame, (l.handleLine text now).level)
  | .event event now => l.handleEvent event now

theorem take_line_level (l : DockerLevel) (text : String) (now : TimeOfDay) :
    (l.take (.line text now)).2 = (l.handleLine text now).level := by
  simp only [take]

theorem take_event_level (l : DockerLevel) (event : SyncEvent) (now : TimeOfDay) :
    (l.take (.event event now)).2 = (l.handleEvent event now).2 := by
  simp only [take]

/-- The tracker follows the container level, and has noticed its end exactly when it has come. -/
structure IsTracked (l : DockerLevel) : Prop where
  level : l.tracker.level = .docker
  accurate : l.tracker.IsAccurate

theorem isTracked_new : new.IsTracked := ⟨rfl, Tracker.isAccurate_new .docker⟩

/-- The level is finished when its three tasks are done. -/
theorem IsTracked.isComplete_eq {l : DockerLevel} (h : l.IsTracked) :
    l.isComplete = l.tracker.tasks.allDone Level.docker.requiredTasks := by
  have hcomplete := h.accurate
  rwa [Tracker.IsAccurate, h.level] at hcomplete

theorem IsTracked.handleLine {l : DockerLevel} (h : l.IsTracked) (line : String)
    (now : TimeOfDay) : (l.handleLine line now).level.IsTracked := by
  refine ⟨?_, ?_⟩
  · rw [handleLine_tracker, recordAll_level]
    exact h.level
  · rw [handleLine_tracker]
    exact isAccurate_recordAll h.accurate _

theorem IsTracked.handleEvent {l : DockerLevel} (h : l.IsTracked) (event : SyncEvent)
    (now : TimeOfDay) : (l.handleEvent event now).2.IsTracked := by
  refine ⟨(l.handleEvent_level event now).trans h.level, ?_⟩
  cases event with
  | loaded progress | updated progress => exact h.accurate.mergeRemote progress.tasks
  | failed request error => exact h.accurate

theorem IsTracked.take {l : DockerLevel} (h : l.IsTracked) (input : LevelInput) :
    (l.take input).2.IsTracked := by
  cases input with
  | line text now =>
      rw [take_line_level]
      exact h.handleLine text now
  | event event now =>
      rw [take_event_level]
      exact h.handleEvent event now

/-- The level after a run. -/
def run (l : DockerLevel) (inputs : List LevelInput) : DockerLevel :=
  inputs.foldl (fun l input => (l.take input).2) l

/-- What holds of a new level and is kept by every step holds after every run. -/
theorem run_induction {P : DockerLevel → Prop} (start : P new)
    (step : ∀ (l : DockerLevel) (input : LevelInput), P l → P (l.take input).2)
    (inputs : List LevelInput) : P (new.run inputs) := by
  have hrun : ∀ l, P l → P (l.run inputs) := by
    induction inputs with
    | nil => exact fun _ hl => hl
    | cons input rest ih => exact fun l hl => ih (l.take input).2 (step l input hl)
  exact hrun new start

end DockerLevel

end EscapeRoom
