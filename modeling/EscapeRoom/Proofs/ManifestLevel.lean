import EscapeRoom.Proofs.LevelRun
import EscapeRoom.Proofs.MachineRun
import EscapeRoom.Room.Check

/-!
# The manifest level and reports on it

The level has one required task, so it is finished as soon as progress or a verdict says that this
task is done; the one step that brings this about is its completion.  A check takes both steps, and
its report shows the level before and after the second one.

* `ManifestLevel.IsTracked` — finished exactly when the task is done; kept by both steps.
* `ManifestLevel.IsTracked.load`, `ManifestLevel.IsTracked.applyVerdict` — the two steps.
* `CheckReport.levelComplete_of`, `CheckReport.celebrate_of`, `CheckReport.initialChecklist_all` —
  what a report says.
* `runCheckWith_eq` — one check, from the answers to its requests.
-/

namespace EscapeRoom

/-! ### Steps of the level -/

namespace ManifestLevel

/-- The tracker follows the manifest level, which is finished exactly when its task is done. -/
structure IsTracked (l : ManifestLevel) : Prop where
  level : l.tracker.level = .manifest
  isComplete : l.isComplete = l.tracker.tasks.isDone Task.validManifest

/-- What a step does to a level: `done` tells whether it brings the required task. -/
structure Steps (l : ManifestLevel) (done : Bool) (next : Transition × ManifestLevel) : Prop where
  isTracked : next.2.IsTracked
  isComplete : next.2.isComplete = (l.isComplete || done)
  transition : next.1 = if !l.isComplete && done then .completed else .unchanged

theorem isTracked_new : new.IsTracked := ⟨rfl, rfl⟩

theorem allDone_manifest (tasks : TaskState) :
    tasks.allDone Level.manifest.requiredTasks = tasks.isDone Task.validManifest :=
  Bool.and_true _

namespace IsTracked

variable {l : ManifestLevel} (h : l.IsTracked)
include h

/-- A step that raises flags. -/
theorem advance {tasks : TaskState} {done : Bool}
    (hdone : tasks.isDone Task.validManifest =
      (l.tracker.tasks.isDone Task.validManifest || done))
    (verdict : Option Verdict) (saved : Option String) :
    l.Steps done (({ l.tracker with tasks := tasks } : Tracker).advance.1,
      ⟨({ l.tracker with tasks := tasks } : Tracker).advance.2, verdict, saved⟩) := by
  have hall : tasks.allDone l.tracker.level.requiredTasks = (l.isComplete || done) := by
    rw [h.level, allDone_manifest, hdone, ← h.isComplete]
  have hbefore : ({ l.tracker with tasks := tasks } : Tracker).isComplete = l.isComplete := rfl
  have hafter : ({ l.tracker with tasks := tasks } : Tracker).advance.2.isComplete =
      (l.isComplete || done) := by
    rw [Tracker.isComplete_advance, hbefore]
    show (l.isComplete || tasks.allDone l.tracker.level.requiredTasks) = _
    rw [hall]
    cases l.isComplete <;> rfl
  refine ⟨⟨?_, ?_⟩, hafter, ?_⟩
  · show ({ l.tracker with tasks := tasks } : Tracker).advance.2.level = _
    rw [Tracker.advance_level]
    exact h.level
  · refine hafter.trans ?_
    show _ = ({ l.tracker with tasks := tasks } : Tracker).advance.2.tasks.isDone _
    rw [Tracker.advance_tasks, hdone, h.isComplete]
  · refine (Tracker.transition_advance _).trans ?_
    rw [hbefore]
    show (if !l.isComplete && tasks.allDone l.tracker.level.requiredTasks then _ else _) = _
    rw [hall]
    cases l.isComplete <;> rfl

theorem load (progress : Progress) :
    l.Steps (progress.tasks.isDone Task.validManifest) (l.load progress) := by
  refine h.advance ?_ _ _
  have hmerge := TaskState.isDone_sup l.tracker.tasks progress.tasks Task.validManifest
  rwa [← TaskState.merge_eq_sup] at hmerge

theorem applyVerdict (verdict : Verdict) : l.Steps verdict.ok (l.applyVerdict verdict) := by
  refine h.advance ?_ _ _
  rw [TaskState.isDone_set, beq_self_eq_true, Bool.and_true]

end IsTracked

/-- A new level takes the manifest of its progress unless it is blank. -/
theorem savedManifest_load_new (progress : Progress) :
    (new.load progress).2.savedManifest =
      progress.manifest.filter fun text => !Text.isBlankText text :=
  Option.or_none

/-! ### The level that a check begins with -/

/-- Whether an answer to a question for progress tells that the level is finished. -/
def isFinishedBy : Except StoreError Progress → Bool
  | .ok progress => progress.tasks.isDone Task.validManifest
  | .error _ => false

theorem isTracked_afterFetch (fetched : Except StoreError Progress) :
    (afterFetch fetched).IsTracked := by
  cases fetched with
  | error e => exact isTracked_new
  | ok progress => exact (isTracked_new.load progress).isTracked

theorem isComplete_afterFetch (fetched : Except StoreError Progress) :
    (afterFetch fetched).isComplete = isFinishedBy fetched := by
  cases fetched with
  | error e => rfl
  | ok progress => exact (isTracked_new.load progress).isComplete

/-- Before a verdict the checklist shows whether the level is finished. -/
theorem checklist_afterFetch (fetched : Except StoreError Progress) :
    (afterFetch fetched).checklist = Rule.all.map fun rule => ⟨rule, isFinishedBy fetched⟩ := by
  have hverdict : (afterFetch fetched).verdict = none := by cases fetched <;> rfl
  rw [checklist, hverdict, isComplete_afterFetch]
  rfl

end ManifestLevel

/-! ### Reports -/

namespace CheckReport

variable (level : ManifestLevel) (verdict : Verdict) (source : VerdictSource)

/-- A report shows the outcome of every rule, whatever happened before. -/
theorem checklist_of :
    (CheckReport.of level verdict source).checklist =
      EscapeRoom.checklist (some verdict) verdict.ok :=
  rfl

theorem levelComplete_of (h : level.IsTracked) :
    (CheckReport.of level verdict source).levelComplete = (level.isComplete || verdict.ok) :=
  (h.applyVerdict verdict).isComplete

theorem celebrate_of (h : level.IsTracked) :
    (CheckReport.of level verdict source).celebrate = (!level.isComplete && verdict.ok) := by
  show ((level.applyVerdict verdict).1 == .completed) = _
  rw [(h.applyVerdict verdict).transition]
  cases (!level.isComplete && verdict.ok) <;> rfl

theorem initialChecklist_all (fetched : Except StoreError Progress) :
    (CheckReport.of (.afterFetch fetched) verdict source).initialChecklist.all (·.satisfied) =
      ManifestLevel.isFinishedBy fetched := by
  show (ManifestLevel.afterFetch fetched).checklist.all _ = _
  rw [ManifestLevel.checklist_afterFetch]
  cases ManifestLevel.isFinishedBy fetched <;> rfl

end CheckReport

/-! ### One check -/

section
variable {σ : Type} (store : ProgressStore (StateM σ)) (player manifest : String) (s : σ)

/-- What a check reports and leaves behind: a passing verdict of its own it reports to the store. -/
theorem runCheckWith_eq :
    runCheckWith store player manifest s =
      let fetched := store.fetch player .manifest s
      let validated := store.validate player manifest fetched.2
      let decided := decideVerdict manifest validated.1
      (.of (.afterFetch fetched.1) decided.1 decided.2,
        if decided.2 = .own && decided.1.ok then
          (store.update player .manifest (.done Task.validManifest) validated.2).2
        else validated.2) := by
  simp only [runCheckWith, bind, StateT.bind]
  generalize store.fetch player .manifest s = fetched
  obtain ⟨fetched, t⟩ := fetched
  dsimp only
  generalize store.validate player manifest t = validated
  obtain ⟨answer, u⟩ := validated
  dsimp only
  generalize decideVerdict manifest answer = decided
  obtain ⟨verdict, source⟩ := decided
  dsimp only
  by_cases hpush : (decide (source = .own) && verdict.ok) = true
  · rw [if_pos hpush, if_pos hpush]
    rfl
  · rw [if_neg hpush, if_neg hpush]
    rfl

end

end EscapeRoom
