import EscapeRoom.Proofs.LevelRun
import Mathlib.Data.List.Forall2

/-!
# Events never set a player back

Two players type the same lines at the same times, and only one of them hears from the store.  The
runs part: a restored image lets a container start that could not start before, and a restored
container may be replaced by it.  What the first player has, the second has all along, as every
command does at least as much in a session that has more.

* `Resources.IsWithin` — more images, and containers under more names.
* `Session.perform_isWithin` — what a command does in two such sessions.
* `DockerLevel.Trails` — one level is not ahead of another; kept by a line to both and by an event
  to the second.
* `DockerLevel.lineOutcomes` — what the lines of a run led to.
* `DockerLevel.events_never_set_back` — the runs compared, line by line.
-/

namespace EscapeRoom

/-! ### Resources -/

/-- Whether some resources have the images of others, and containers under all of their names. -/
structure Resources.IsWithin (r s : Resources) : Prop where
  images : ∀ image, r.hasImage image = true → s.hasImage image = true
  containers : ∀ name, (r.container? name).isSome = true → (s.container? name).isSome = true

namespace Resources.IsWithin

variable {r s : Resources}

theorem refl (r : Resources) : r.IsWithin r := ⟨fun _ => id, fun _ => id⟩

theorem addImage (h : r.IsWithin s) (image : String) :
    (r.addImage image).IsWithin (s.addImage image) := by
  refine ⟨fun q hq => ?_, h.containers⟩
  rw [hasImage_addImage, Bool.or_eq_true] at hq ⊢
  exact hq.imp_right (h.images q)

/-- A started container stands under its name, and the other names keep theirs. -/
theorem isSome_container?_putContainer {c : Container} (himage : s.hasImage c.image = true)
    (name : String) :
    ((s.putContainer c).container? name).isSome =
      (name == c.name || (s.container? name).isSome) := by
  rw [container?_putContainer himage]
  by_cases hname : name = c.name
  · simp [hname]
  · simp [hname]

theorem putContainer (h : r.IsWithin s) {c : Container} (himage : r.hasImage c.image = true) :
    (r.putContainer c).IsWithin (s.putContainer c) := by
  refine ⟨fun q hq => ?_, fun name hname => ?_⟩
  · rw [hasImage_putContainer] at hq ⊢
    exact h.images q hq
  · rw [isSome_container?_putContainer himage, Bool.or_eq_true] at hname
    rw [isSome_container?_putContainer (h.images _ himage), Bool.or_eq_true]
    exact hname.imp_right (h.containers name)

/-- A container that starts only on the larger side takes no name away. -/
theorem putContainer_right (h : r.IsWithin s) {c : Container}
    (himage : s.hasImage c.image = true) : r.IsWithin (s.putContainer c) := by
  refine ⟨fun q hq => ?_, fun name hname => ?_⟩
  · rw [hasImage_putContainer]
    exact h.images q hq
  · rw [isSome_container?_putContainer himage, h.containers name hname, Bool.or_true]

theorem restore {t : Session} (h : r.IsWithin t.resources) (tasks : TaskState)
    (now : TimeOfDay) : r.IsWithin (t.restore tasks now).resources := by
  refine ⟨fun q hq => ?_, fun name hname => ?_⟩
  · rw [Session.hasImage_restore, h.images q hq, Bool.or_true]
  · rw [Session.container?_restore]
    split
    · rfl
    · exact h.containers name hname

end Resources.IsWithin

/-! ### Commands -/

namespace Session

variable {s t : Session} (h : s.resources.IsWithin t.resources) (now : TimeOfDay)
include h

theorem run_isWithin (request : RunRequest) :
    (s.run request now).2.resources.IsWithin (t.run request now).2.resources ∧
      (s.run request now).1.signals ⊆ (t.run request now).1.signals := by
  unfold run
  -- it starts on both sides, on the larger one only, or on neither
  by_cases hs : s.resources.hasImage request.image = true
  · rw [if_pos hs, if_pos (h.images _ hs)]
    exact ⟨h.putContainer hs, List.Subset.refl _⟩
  · rw [if_neg hs]
    refine ⟨?_, List.nil_subset _⟩
    by_cases ht : t.resources.hasImage request.image = true
    · rw [if_pos ht]
      exact h.putContainer_right ht
    · rw [if_neg ht]
      exact h

theorem logs_subset (name : String) : (s.logs name).signals ⊆ (t.logs name).signals := by
  unfold logs
  cases hs : s.resources.container? name with
  | none => exact List.nil_subset _
  | some c =>
      have ht := h.containers name (hs ▸ rfl)
      obtain ⟨d, hd⟩ := Option.isSome_iff_exists.1 ht
      rw [hd]
      exact List.Subset.refl _

/-- A command does at least as much in a session that has more. -/
theorem perform_isWithin (command : Command) :
    (s.perform now command).2.resources.IsWithin (t.perform now command).2.resources ∧
      (s.perform now command).1.signals ⊆ (t.perform now command).1.signals := by
  cases command with
  | pull image =>
      cases image with
      | none => exact ⟨h, List.Subset.refl _⟩
      | some image => exact ⟨h.addImage image, List.Subset.refl _⟩
  | run request =>
      cases request with
      | none => exact ⟨h, List.Subset.refl _⟩
      | some request => exact run_isWithin h now request
  | logs name =>
      cases name with
      | none => exact ⟨h, List.Subset.refl _⟩
      | some name => exact ⟨h, logs_subset h name⟩
  | blank | help | clear | hint | images | ps | unknown => exact ⟨h, List.nil_subset _⟩

theorem interpret_isWithin (line : String) :
    (s.interpret line now).2.resources.IsWithin (t.interpret line now).2.resources ∧
      (s.interpret line now).1.signals ⊆ (t.interpret line now).1.signals :=
  perform_isWithin h now (.ofLine line)

end Session

/-- What more signals say is more. -/
theorem TaskState.ofSignals_mono {signals more : List TaskSignal} (h : signals ⊆ more) :
    ofSignals signals ≤ ofSignals more := by
  induction signals with
  | nil => exact bot_le
  | cons signal rest ih =>
      obtain ⟨hmem, hrest⟩ := List.cons_subset.1 h
      obtain ⟨before, after, hmore⟩ := List.append_of_mem hmem
      have hone : ofSignals [signal] ≤ ofSignals more := by
        rw [hmore, ofSignals_append, ofSignals_cons signal after]
        exact le_sup_left.trans le_sup_right
      rw [ofSignals_cons]
      exact sup_le hone (ih hrest)

/-! ### Levels -/

namespace DockerLevel

/-- Whether a level is not ahead of another: it has nothing and has done nothing that the other has
not. -/
structure Trails (l m : DockerLevel) : Prop where
  resources : l.session.resources.IsWithin m.session.resources
  tasks : l.tracker.tasks ≤ m.tracker.tasks
  tracked : l.IsTracked
  other_tracked : m.IsTracked

namespace Trails

variable {l m : DockerLevel}

theorem new : Trails .new .new :=
  ⟨.refl _, le_refl _, isTracked_new, isTracked_new⟩

/-- A level that is not ahead is not finished earlier. -/
theorem isComplete (h : Trails l m) (hl : l.isComplete = true) : m.isComplete = true := by
  rw [h.tracked.isComplete_eq] at hl
  rw [h.other_tracked.isComplete_eq]
  exact TaskState.allDone_mono h.tasks hl

theorem signals (h : Trails l m) (line : String) (now : TimeOfDay) :
    (l.handleLine line now).signals ⊆ (m.handleLine line now).signals := by
  rw [handleLine_signals, handleLine_signals]
  exact (Session.interpret_isWithin h.resources now line).2

theorem handleLine (h : Trails l m) (line : String) (now : TimeOfDay) :
    Trails (l.handleLine line now).level (m.handleLine line now).level := by
  refine ⟨?_, ?_, h.tracked.handleLine line now, h.other_tracked.handleLine line now⟩
  · rw [handleLine_session, handleLine_session]
    exact (Session.interpret_isWithin h.resources now line).1
  · rw [handleLine_tasks, handleLine_tasks]
    exact sup_le_sup h.tasks (TaskState.ofSignals_mono (h.signals line now))

/-- An event to the level that is ahead leaves it ahead. -/
theorem handleEvent (h : Trails l m) (event : SyncEvent) (now : TimeOfDay) :
    Trails l (m.handleEvent event now).2 := by
  refine ⟨?_, ?_, h.tracked, h.other_tracked.handleEvent event now⟩
  · rcases m.handleEvent_session event now with hsession | hsame
    · rw [hsession]
      exact h.resources.restore _ now
    · rw [hsame]
      exact h.resources
  · rw [handleEvent_tasks]
    exact h.tasks.trans le_sup_left

end Trails

end DockerLevel

/-- Whether something that a level takes is a line. -/
def LevelInput.isLine : LevelInput → Bool
  | line _ _ => true
  | event _ _ => false

namespace DockerLevel

/-- What the lines of a run led to, one after the other. -/
def lineOutcomes (l : DockerLevel) : List LevelInput → List LineOutcome
  | [] => []
  | .line text now :: rest =>
      l.handleLine text now :: lineOutcomes (l.handleLine text now).level rest
  | .event event now :: rest => lineOutcomes (l.handleEvent event now).2 rest

/-- A run on the lines alone, from a level that is not ahead, stays behind line by line. -/
theorem Trails.lineOutcomes {l m : DockerLevel} (h : Trails l m) (inputs : List LevelInput) :
    List.Forall₂
      (fun alone helped => Trails alone.level helped.level ∧ alone.signals ⊆ helped.signals)
      (l.lineOutcomes (inputs.filter LevelInput.isLine)) (m.lineOutcomes inputs) := by
  induction inputs generalizing l m with
  | nil => exact .nil
  | cons input rest ih =>
      cases input with
      | line text now =>
          exact .cons ⟨h.handleLine text now, h.signals text now⟩ (ih (h.handleLine text now))
      | event event now => exact ih (h.handleEvent event now)

/-- **Events never set a player back.**  Lines reach one new level alone, and another one with any
events between them.  After every line the level with events has all images of the other and
containers under all of its names, every task that is done in the other is done, it has emitted the
signals of the other for this line, and it is finished if the other is. -/
theorem events_never_set_back (inputs : List LevelInput) :
    List.Forall₂
      (fun alone helped =>
        (∀ image, alone.level.session.resources.hasImage image = true →
          helped.level.session.resources.hasImage image = true) ∧
        (∀ name, (alone.level.session.resources.container? name).isSome = true →
          (helped.level.session.resources.container? name).isSome = true) ∧
        (∀ task, alone.level.tracker.tasks.isDone task = true →
          helped.level.tracker.tasks.isDone task = true) ∧
        (∀ signal ∈ alone.signals, signal ∈ helped.signals) ∧
        (alone.level.isComplete = true → helped.level.isComplete = true))
      (new.lineOutcomes (inputs.filter LevelInput.isLine)) (new.lineOutcomes inputs) := by
  refine (Trails.new.lineOutcomes inputs).imp ?_
  rintro alone helped ⟨htrails, hsignals⟩
  exact ⟨htrails.resources.images, htrails.resources.containers,
    fun _ hdone => TaskState.isDone_mono htrails.tasks hdone, hsignals, htrails.isComplete⟩

end DockerLevel

end EscapeRoom
