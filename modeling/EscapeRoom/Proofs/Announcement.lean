import EscapeRoom.Proofs.LevelRun
import EscapeRoom.Proofs.MachineRun

/-!
# Every completion is announced once

A frame lists the tasks that a step found undone and left done, and celebrates when the step found
the level unfinished and left it finished.  Over a run these differences add up: what the frames of
a run announce is what is done after it and was not done before, nothing twice, and the run
celebrates once if it finishes the level and never if it does not.

* `TaskState.mem_newlyDone`, `TaskState.nodup_newlyDone` — the tasks that a frame lists.
* `DockerLevel.frames`, `Frame.announced` — the frames of a run, and what they announce.
* `DockerLevel.completedTasks_take`, `DockerLevel.celebrate_take` — the frame of one step.
* `DockerLevel.mem_announced`, `DockerLevel.countP_celebrate` — the frames of a run.
* `DockerLevel.completions_announced_once` — what a player sees from the beginning on.
-/

namespace EscapeRoom

namespace TaskState

theorem mem_toList {s : TaskState} {task : String} :
    (task, true) ∈ s.toList ↔ s.isDone task = true := by
  rw [toList, OrderedMap.mem_entries, isDone, get?]
  cases s.flags.get? task <;> simp

theorem mem_newlyDone {before after : TaskState} {task : String} :
    task ∈ before.newlyDone after ↔ before.isDone task = false ∧ after.isDone task = true := by
  rw [newlyDone, List.mem_map]
  constructor
  · rintro ⟨⟨k, flag⟩, hmem, rfl⟩
    obtain ⟨hentry, hnew⟩ := List.mem_filter.1 hmem
    rw [Bool.and_eq_true, Bool.not_eq_true'] at hnew
    obtain ⟨rfl, hbefore⟩ := hnew
    exact ⟨hbefore, mem_toList.1 hentry⟩
  · rintro ⟨hbefore, hafter⟩
    refine ⟨(task, true), List.mem_filter.2 ⟨mem_toList.2 hafter, ?_⟩, rfl⟩
    rw [hbefore]
    rfl

theorem nodup_newlyDone (before after : TaskState) : (before.newlyDone after).Nodup := by
  have hsorted : (before.newlyDone after).Pairwise (· < ·) :=
    (after.flags.sorted.filter _).map Prod.fst fun _ _ h => h
  refine hsorted.imp ?_
  rintro a _ hlt rfl
  exact Std.lt_irrefl hlt

theorem newlyDone_self (s : TaskState) : s.newlyDone s = [] := by
  rw [List.eq_nil_iff_forall_not_mem]
  intro task hmem
  obtain ⟨hbefore, hafter⟩ := mem_newlyDone.1 hmem
  exact Bool.false_ne_true (hbefore.symm.trans hafter)

/-- In the beginning nothing is done. -/
theorem isDone_forLevel (level : Level) (task : String) : (forLevel level).isDone task = false := by
  cases level <;>
    simp only [forLevel, ofList, setAll, Level.requiredTasks, List.map_cons, List.map_nil,
      List.foldl_cons, List.foldl_nil, isDone_set, Bool.false_and, Bool.or_false] <;>
    rfl

end TaskState

/-- The tasks that frames announce, one frame after the other. -/
def Frame.announced (frames : List Frame) : List String := frames.flatMap completedTasks

namespace DockerLevel

variable (l : DockerLevel)

/-! ### One step -/

/-- A frame lists the tasks that became done in its step. -/
theorem completedTasks_take (input : LevelInput) :
    (l.take input).1.completedTasks =
      l.tracker.tasks.newlyDone (l.take input).2.tracker.tasks := by
  cases input with
  | line text now =>
      simp only [take]
      rw [handleLine_eq]
  | event event now =>
      cases event with
      | loaded progress | updated progress => rfl
      | failed request error => exact (TaskState.newlyDone_self _).symm

/-- A frame celebrates when its step finished the level. -/
theorem celebrate_take (input : LevelInput) :
    (l.take input).1.celebrate = (!l.isComplete && (l.take input).2.isComplete) := by
  cases input with
  | line text now =>
      simp only [take]
      rw [handleLine_eq]
      exact recordAll_celebrates ..
  | event event now =>
      cases event with
      | loaded progress | updated progress =>
          exact Tracker.completed_mergeRemote l.tracker progress.tasks
      | failed request error => exact (Bool.not_and_self l.isComplete).symm

theorem tasks_le_take (input : LevelInput) :
    l.tracker.tasks ≤ (l.take input).2.tracker.tasks := by
  cases input with
  | line text now =>
      rw [take_line_level, handleLine_tasks]
      exact le_sup_left
  | event event now =>
      rw [take_event_level, handleEvent_tasks]
      exact le_sup_left

/-! ### Runs -/

/-- The frames of a run. -/
def frames (l : DockerLevel) : List LevelInput → List Frame
  | [] => []
  | input :: rest => (l.take input).1 :: frames (l.take input).2 rest

theorem frames_append (before after : List LevelInput) :
    l.frames (before ++ after) = l.frames before ++ (l.run before).frames after := by
  induction before generalizing l with
  | nil => rfl
  | cons input rest ih => exact congrArg _ (ih (l.take input).2)

variable {l} in
/-- A frame of a run is that of one step, which some steps precede. -/
theorem frames_eq_append {inputs : List LevelInput} {earlier later : List Frame} {frame : Frame}
    (h : l.frames inputs = earlier ++ frame :: later) :
    ∃ before input, l.frames before = earlier ∧ ((l.run before).take input).1 = frame := by
  induction earlier generalizing l inputs with
  | nil =>
      cases inputs with
      | nil => cases h
      | cons input rest => exact ⟨[], input, rfl, (List.cons.inj h).1⟩
  | cons first others ih =>
      cases inputs with
      | nil => cases h
      | cons start rest =>
          obtain ⟨hfirst, hrest⟩ := List.cons.inj h
          obtain ⟨before, input, hbefore, hframe⟩ := ih hrest
          exact ⟨start :: before, input, congrArg₂ List.cons hfirst hbefore, hframe⟩

theorem run_concat (before : List LevelInput) (input : LevelInput) :
    l.run (before ++ [input]) = ((l.run before).take input).2 := by
  simp only [run, List.foldl_append, List.foldl_cons, List.foldl_nil]

theorem tasks_le_run (inputs : List LevelInput) :
    l.tracker.tasks ≤ (l.run inputs).tracker.tasks := by
  induction inputs generalizing l with
  | nil => exact le_refl _
  | cons input rest ih => exact (l.tasks_le_take input).trans (ih (l.take input).2)

/-- A run announces what is done after it and was not done before. -/
theorem mem_announced (inputs : List LevelInput) (task : String) :
    task ∈ Frame.announced (l.frames inputs) ↔
      l.tracker.tasks.isDone task = false ∧ (l.run inputs).tracker.tasks.isDone task = true := by
  induction inputs generalizing l with
  | nil =>
      show task ∈ [] ↔ l.tracker.tasks.isDone task = false ∧ l.tracker.tasks.isDone task = true
      cases l.tracker.tasks.isDone task <;> simp
  | cons input rest ih =>
      show task ∈ (l.take input).1.completedTasks ++
        Frame.announced ((l.take input).2.frames rest) ↔ l.tracker.tasks.isDone task = false ∧
          ((l.take input).2.run rest).tracker.tasks.isDone task = true
      rw [List.mem_append, ih, completedTasks_take, TaskState.mem_newlyDone]
      -- done before the step, it is done after it; done after the step, it is done in the end
      have hstep : l.tracker.tasks.isDone task = true →
          (l.take input).2.tracker.tasks.isDone task = true :=
        TaskState.isDone_mono (l.tasks_le_take input)
      have hrest : (l.take input).2.tracker.tasks.isDone task = true →
          ((l.take input).2.run rest).tracker.tasks.isDone task = true :=
        TaskState.isDone_mono ((l.take input).2.tasks_le_run rest)
      cases hbefore : l.tracker.tasks.isDone task with
      | true => simp [hstep hbefore]
      | false =>
          cases hafter : (l.take input).2.tracker.tasks.isDone task with
          | true => simp [hrest hafter]
          | false => simp

/-- A run announces nothing twice. -/
theorem nodup_announced (inputs : List LevelInput) :
    (Frame.announced (l.frames inputs)).Nodup := by
  induction inputs generalizing l with
  | nil => exact List.nodup_nil
  | cons input rest ih =>
      show ((l.take input).1.completedTasks ++
        Frame.announced ((l.take input).2.frames rest)).Nodup
      refine List.nodup_append.2 ⟨?_, ih _, ?_⟩
      · rw [completedTasks_take]
        exact TaskState.nodup_newlyDone _ _
      · rintro task hfirst _ hlater rfl
        rw [completedTasks_take, TaskState.mem_newlyDone] at hfirst
        rw [mem_announced] at hlater
        exact Bool.false_ne_true (hlater.1.symm.trans hfirst.2)

theorem frames_eq_answers (inputs : List LevelInput) : l.frames inputs = answers take l inputs := by
  induction inputs generalizing l with
  | nil => rfl
  | cons input rest ih => exact congrArg _ (ih (l.take input).2)

/-- A frame celebrates when its step finished the level, and a finished level stays finished. -/
theorem tellsOnset : TellsOnset take IsTracked isComplete Frame.celebrate where
  keeps input h := h.take input
  stays {l} input h hcomplete := by
    rw [(h.take input).isComplete_eq]
    rw [h.isComplete_eq] at hcomplete
    exact TaskState.allDone_mono (l.tasks_le_take input) hcomplete
  tells {l} input _ := l.celebrate_take input

variable {l} in
theorem IsTracked.run (h : l.IsTracked) (inputs : List LevelInput) :
    (l.run inputs).IsTracked :=
  tellsOnset.keeps_run h inputs

variable {l} in
/-- A run celebrates once if it finishes the level, and never if it does not. -/
theorem countP_celebrate (h : l.IsTracked) (inputs : List LevelInput) :
    (l.frames inputs).countP Frame.celebrate =
      if !l.isComplete && (l.run inputs).isComplete then 1 else 0 := by
  rw [frames_eq_answers]
  exact tellsOnset.countP_answers h inputs

variable {l} in
/-- The frame that celebrates lists a required task, after which none is missing. -/
theorem IsTracked.celebrate_iff (h : l.IsTracked) (input : LevelInput) :
    (l.take input).1.celebrate = true ↔
      (∃ task ∈ Level.docker.requiredTasks, task ∈ (l.take input).1.completedTasks) ∧
        ∀ task ∈ Level.docker.requiredTasks, (l.take input).2.tracker.tasks.isDone task = true := by
  rw [celebrate_take, h.isComplete_eq, (h.take input).isComplete_eq, completedTasks_take,
    Bool.and_eq_true, Bool.not_eq_true', ← Bool.not_eq_true, TaskState.allDone, TaskState.allDone,
    List.all_eq_true, List.all_eq_true]
  constructor
  · rintro ⟨hmissing, hall⟩
    refine ⟨?_, hall⟩
    by_contra hnone
    refine hmissing fun task htask => ?_
    by_contra hbefore
    exact hnone ⟨task, htask,
      TaskState.mem_newlyDone.2 ⟨Bool.not_eq_true _ ▸ hbefore, hall task htask⟩⟩
  · rintro ⟨⟨task, htask, hnew⟩, hall⟩
    refine ⟨fun hbefore => ?_, hall⟩
    exact Bool.false_ne_true ((TaskState.mem_newlyDone.1 hnew).1.symm.trans (hbefore task htask))

/-- **Every completion is announced exactly once.**  Lines and events reach a new level in any
order, with any flags.  The frames announce no task twice, and together exactly the tasks that are
done in the end.  At most one frame celebrates: the one that announces what was still missing of the
required tasks.  Some frame has celebrated exactly when the level is finished. -/
theorem completions_announced_once (inputs : List LevelInput) :
    let frames := new.frames inputs
    let last := new.run inputs
    (Frame.announced frames).Nodup ∧
      (∀ task, task ∈ Frame.announced frames ↔ last.tracker.tasks.isDone task = true) ∧
      frames.countP Frame.celebrate ≤ 1 ∧
      (∀ earlier frame later, frames = earlier ++ frame :: later →
        (frame.celebrate = true ↔
          (∃ task ∈ Level.docker.requiredTasks, task ∈ frame.completedTasks) ∧
            ∀ task ∈ Level.docker.requiredTasks, task ∈ Frame.announced (earlier ++ [frame]))) ∧
      ((∃ frame ∈ frames, frame.celebrate = true) ↔ last.isComplete = true) := by
  intro frames last
  have hannounced : ∀ run task, task ∈ Frame.announced (new.frames run) ↔
      (new.run run).tracker.tasks.isDone task = true := by
    intro run task
    rw [mem_announced]
    exact and_iff_right (TaskState.isDone_forLevel .docker task)
  have hcount : frames.countP Frame.celebrate = if last.isComplete then 1 else 0 :=
    countP_celebrate isTracked_new inputs
  refine ⟨new.nodup_announced inputs, hannounced inputs, ?_, ?_, ?_⟩
  · rw [hcount]
    split <;> omega
  · intro earlier frame later hframes
    obtain ⟨before, input, rfl, rfl⟩ := frames_eq_append hframes
    rw [(isTracked_new.run before).celebrate_iff input]
    have hupto : new.frames before ++ [((new.run before).take input).1] =
        new.frames (before ++ [input]) := (new.frames_append before [input]).symm
    rw [hupto, ← run_concat]
    exact and_congr_right fun _ => forall₂_congr fun task _ => (hannounced _ task).symm
  · rw [← List.countP_pos_iff, hcount]
    cases last.isComplete <;> simp

/-- Two tasks come from the store at once, the last one from the player, and then a stale report. -/
theorem announced_once_after_reports :
    let now : TimeOfDay := ⟨12, 0, 0⟩
    let reported : LevelInput :=
      .event (.loaded ⟨.ofList [(Task.run, true), (Task.pull, true)], false, none⟩) now
    let typed : LevelInput := .line "docker logs web" now
    let stale : LevelInput := .event (.updated ⟨.ofList [(Task.pull, true)], false, none⟩) now
    let first := (new.take reported).1
    let second := ((new.run [reported]).take typed).1
    let third := ((new.run [reported, typed]).take stale).1
    new.frames [reported, typed, stale] = [first] ++ second :: [third] ∧
      first.completedTasks = [Task.pull, Task.run] ∧ second.completedTasks = [Task.logs] ∧
      third.completedTasks = [] ∧ second.celebrate = true := by
  intro now reported typed stale first second third
  obtain ⟨-, -, -, hcelebrates, -⟩ := completions_announced_once [reported, typed, stale]
  refine ⟨rfl, ?_, ?_, ?_, (hcelebrates [first] second [third] rfl).2 ⟨?_, ?_⟩⟩
  all_goals decide +kernel

end DockerLevel

end EscapeRoom
