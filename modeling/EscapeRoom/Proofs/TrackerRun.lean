import EscapeRoom.Proofs.LevelRun
import EscapeRoom.Proofs.MachineRun

/-!
# Trackers complete once

A tracker takes signals of the player and flags of the store in any order, of any tasks and with any
flags.  Either is a join to its tasks, and its phase follows the tasks: so a run is the join of all
that was taken, whatever its order, and the one call that brings in what was missing last is the one
that completes the level.

* `TrackerCall`, `Tracker.take`, `Tracker.run`, `Tracker.transitions` — calls, one step, and runs.
* `Tracker.take_tasks`, `Tracker.IsAccurate.take`, `Tracker.tellsOnset` — what a call does.
* `Tracker.run_tasks_le_iff`, `Tracker.run_eq_of_mem_iff` — the tasks after a run, by what was
  taken.
* `Tracker.level_completes_once` — what holds of every run.
-/

namespace EscapeRoom

/-- Something that a tracker takes. -/
inductive TrackerCall
  /-- A signal of the player's own session. -/
  | record (signal : TaskSignal)
  /-- Flags that the progress store reports. -/
  | merge (remote : TaskState)
  deriving DecidableEq

/-- What a call says of tasks. -/
def TrackerCall.tasks : TrackerCall → TaskState
  | record signal => .ofSignals [signal]
  | merge remote => remote

namespace Tracker

/-- One step of a tracker. -/
def take (t : Tracker) : TrackerCall → Transition × Tracker
  | .record signal => t.record signal
  | .merge remote => t.mergeRemote remote

/-- The tracker after some calls. -/
def run (t : Tracker) (calls : List TrackerCall) : Tracker := lastState take t calls

/-- What the calls of a run meant for the level. -/
def transitions (t : Tracker) (calls : List TrackerCall) : List Transition := answers take t calls

theorem isComplete_iff {t : Tracker} : t.isComplete = true ↔ t.phase = .complete := beq_iff_eq

/-! ### One call -/

section
variable (t : Tracker) (call : TrackerCall)

theorem take_tasks : (t.take call).2.tasks = t.tasks ⊔ call.tasks := by
  cases call with
  | record signal => exact t.record_tasks signal
  | merge remote => exact t.mergeRemote_tasks remote

theorem take_level : (t.take call).2.level = t.level := by
  cases call with
  | record signal => exact t.record_level signal
  | merge remote => exact t.mergeRemote_level remote

theorem completed_take :
    ((t.take call).1 == .completed) = (!t.isComplete && (t.take call).2.isComplete) := by
  cases call with
  | record signal => exact t.completed_record signal
  | merge remote => exact t.completed_mergeRemote remote

end

theorem IsAccurate.take {t : Tracker} (h : t.IsAccurate) (call : TrackerCall) :
    (t.take call).2.IsAccurate := by
  cases call with
  | record signal => exact h.record signal
  | merge remote => exact h.mergeRemote remote

/-- A level that is finished stays finished, as no task is undone. -/
theorem IsAccurate.isComplete_mono {t u : Tracker} (ht : t.IsAccurate) (hu : u.IsAccurate)
    (hlevel : u.level = t.level) (htasks : t.tasks ≤ u.tasks) (h : t.isComplete = true) :
    u.isComplete = true := by
  rw [ht] at h
  rw [hu, hlevel]
  exact TaskState.allDone_mono htasks h

/-- The phase follows the tasks. -/
theorem IsAccurate.eq_of_tasks {t u : Tracker} (ht : t.IsAccurate) (hu : u.IsAccurate)
    (hlevel : t.level = u.level) (htasks : t.tasks = u.tasks) : t = u := by
  have hphase : t.phase = .complete ↔ u.phase = .complete := by
    rw [← isComplete_iff, ← isComplete_iff, ht, hu, hlevel, htasks]
  obtain ⟨level, tasks, phase⟩ := t
  obtain ⟨level', tasks', phase'⟩ := u
  cases hlevel
  cases htasks
  cases phase <;> cases phase' <;> simp at hphase ⊢

/-- A call answers that it completed the level when it found it unfinished and left it finished. -/
theorem tellsOnset : TellsOnset take IsAccurate isComplete (· == .completed) where
  keeps call h := h.take call
  stays {t} call h :=
    h.isComplete_mono (h.take call) (t.take_level call) (t.take_tasks call ▸ le_sup_left)
  tells {t} call _ := t.completed_take call

/-! ### Runs -/

section
variable (t : Tracker) (calls : List TrackerCall)

theorem run_level : (t.run calls).level = t.level := by
  induction calls generalizing t with
  | nil => rfl
  | cons call rest ih => exact (ih (t.take call).2).trans (t.take_level call)

/-- The tasks after a run are the least state above those before it and what its calls say. -/
theorem run_tasks_le_iff {bound : TaskState} :
    (t.run calls).tasks ≤ bound ↔ t.tasks ≤ bound ∧ ∀ call ∈ calls, call.tasks ≤ bound := by
  induction calls generalizing t with
  | nil => simp [run, lastState]
  | cons call rest ih =>
      show ((t.take call).2.run rest).tasks ≤ bound ↔ _
      rw [ih, take_tasks, sup_le_iff, List.forall_mem_cons, and_assoc]

theorem tasks_le_run : t.tasks ≤ (t.run calls).tasks := ((t.run_tasks_le_iff calls).1 le_rfl).1

variable {t calls}

theorem IsAccurate.run (h : t.IsAccurate) (calls : List TrackerCall) :
    (t.run calls).IsAccurate :=
  tellsOnset.keeps_run h calls

/-- Runs of the same calls, in any order and any number of times, come to the same tracker. -/
theorem run_eq_of_mem_iff (h : t.IsAccurate) {other : List TrackerCall}
    (hsame : ∀ call, call ∈ other ↔ call ∈ calls) : t.run other = t.run calls := by
  apply (h.run other).eq_of_tasks (h.run calls)
  · rw [run_level, run_level]
  · apply eq_of_forall_ge_iff
    intro bound
    simp only [run_tasks_le_iff, hsame]

end

/-- **A level completes once.**  A tracker of either level takes signals and flags of any tasks, in
any order.  Its phase is that of a finished level exactly when all required tasks are done.  A call
completes the level if not all of them were done before it and all are after it, which happens once
if the level is finished in the end and never if it is not.  Whatever follows, no task becomes
undone and no finished level unfinished.  And the same calls in another order, or repeated, come to
the same tasks and the same phase. -/
theorem level_completes_once (level : Level) (calls : List TrackerCall) :
    let t := (new level).run calls
    (t.phase = .complete ↔ ∀ task ∈ level.requiredTasks, t.tasks.isDone task = true) ∧
    (∀ call, (t.take call).1 = .completed ↔
      (¬ ∀ task ∈ level.requiredTasks, t.tasks.isDone task = true) ∧
        ∀ task ∈ level.requiredTasks, (t.take call).2.tasks.isDone task = true) ∧
    ((new level).transitions calls).count .completed = (if t.phase = .complete then 1 else 0) ∧
    (∀ more,
      (∀ task, t.tasks.isDone task = true → (t.run more).tasks.isDone task = true) ∧
      (t.phase = .complete → (t.run more).phase = .complete)) ∧
    ∀ other : List TrackerCall, (∀ call, call ∈ other ↔ call ∈ calls) →
      (new level).run other = t := by
  intro t
  have haccurate : ∀ run, ((new level).run run).IsAccurate := (isAccurate_new level).run
  -- the phase, of the tracker after any run
  have hphase : ∀ {u : Tracker}, u.IsAccurate → u.level = level →
      (u.isComplete = true ↔ ∀ task ∈ level.requiredTasks, u.tasks.isDone task = true) := by
    intro u hu hlevel
    rw [hu, hlevel, TaskState.allDone, List.all_eq_true]
  have hlevel : t.level = level := run_level ..
  have hnow := hphase (haccurate calls) hlevel
  refine ⟨isComplete_iff.symm.trans hnow, ?_, ?_, ?_, ?_⟩
  · intro call
    have hnext := hphase ((haccurate calls).take call) ((t.take_level call).trans hlevel)
    rw [← hnow, ← hnext, ← beq_iff_eq (b := Transition.completed), completed_take,
      Bool.and_eq_true, Bool.not_eq_true', Bool.not_eq_true]
  · have hcount := tellsOnset.countP_answers (isAccurate_new level) calls
    rw [transitions, List.count, hcount]
    have hstart : (new level).isComplete = false := rfl
    have hend : (lastState take (new level) calls).isComplete = t.isComplete := rfl
    rw [hstart, hend, Bool.not_false, Bool.true_and]
    simp only [isComplete_iff]
  · intro more
    refine ⟨fun task => TaskState.isDone_mono (t.tasks_le_run more), ?_⟩
    rw [← isComplete_iff, ← isComplete_iff]
    exact fun hcomplete => tellsOnset.stays_run (haccurate calls) hcomplete more
  · intro other hsame
    exact run_eq_of_mem_iff (isAccurate_new level) hsame

/-- A stale report and two signals, then in another order and some of them twice. -/
theorem completed_by_repeated_calls :
    let pulled : TrackerCall := .record (.done Task.pull)
    let logged : TrackerCall := .record (.done Task.logs)
    let stale : TrackerCall :=
      .merge (.ofList [(Task.pull, false), (Task.run, true), ("other", true)])
    (∀ call, call ∈ [logged, stale, logged, pulled, stale] ↔ call ∈ [pulled, stale, logged]) ∧
      (new .docker).run [logged, stale, logged, pulled, stale] =
        (new .docker).run [pulled, stale, logged] ∧
      (new .docker).transitions [logged, stale, logged, pulled, stale] =
        [.unchanged, .unchanged, .unchanged, .completed, .unchanged] := by
  intro pulled logged stale
  have hsame : ∀ call, call ∈ [logged, stale, logged, pulled, stale] ↔
      call ∈ [pulled, stale, logged] := by
    intro call
    grind
  obtain ⟨-, -, -, -, hrun⟩ := level_completes_once .docker [pulled, stale, logged]
  exact ⟨hsame, hrun _ hsame, by decide⟩

end Tracker

end EscapeRoom
