import EscapeRoom.Proofs.TaskOrder
import EscapeRoom.Terminal.Command

/-!
# What a line does to a session

Most commands only show something.  Three touch the resources or complete a task: pulling an image,
running a container of a pulled image, and showing the log of a container.  `Session.Effect` lists
them, so a fact about sessions is proved with one case for each.

* `Resources.hasImage_putContainer`, `Resources.container?_putContainer` — the resources after a
  container was added.
* `Session.Effect` — what can come of a line.
* `Session.effect_interpret` — nothing else comes of it.
-/

namespace EscapeRoom

namespace Resources

theorem hasImage_addImage (r : Resources) (image q : String) :
    (r.addImage image).hasImage q = (q == image || r.hasImage q) := by
  rw [Bool.eq_iff_iff]
  simp [hasImage, addImage, OrderedSet.contains]

theorem hasImage_addImage_self (r : Resources) (image : String) :
    (r.addImage image).hasImage image = true := by
  simp [hasImage_addImage]

@[simp] theorem container?_addImage (r : Resources) (image name : String) :
    (r.addImage image).container? name = r.container? name := rfl

theorem putContainer_eq {r : Resources} {c : Container} (h : r.hasImage c.image = true) :
    r.putContainer c = { r with containers := r.containers.insert c.name c } := by
  simp [putContainer, putContainer?, h]

/-- Without its image a container is left out. -/
theorem putContainer_of_missing {r : Resources} {c : Container} (h : ¬ r.hasImage c.image = true) :
    r.putContainer c = r := by
  rw [putContainer, putContainer?, if_neg h]
  rfl

@[simp] theorem hasImage_putContainer (r : Resources) (c : Container) (image : String) :
    (r.putContainer c).hasImage image = r.hasImage image := by
  by_cases h : r.hasImage c.image = true
  · rw [putContainer_eq h]
    rfl
  · rw [putContainer_of_missing h]

theorem container?_putContainer {r : Resources} {c : Container} (h : r.hasImage c.image = true)
    (name : String) :
    (r.putContainer c).container? name = if name = c.name then some c else r.container? name := by
  rw [putContainer_eq h]
  exact OrderedMap.get?_insert r.containers c.name name c

end Resources

namespace Session

theorem ext_fields {s t : Session} (hresources : s.resources = t.resources)
    (hhint : s.hintCursor = t.hintCursor) : s = t := by
  cases s
  cases t
  exact congrArg₂ mk hresources hhint

/-- What can come of a line: the reply and the session after it, seen from the session before. -/
inductive Effect (s : Session) (now : TimeOfDay) : Reply → Session → Prop
  /-- Nothing happens to the resources or the tasks. -/
  | quiet {reply : Reply} {next : Session} (signals : reply.signals = [])
      (resources : next.resources = s.resources) : Effect s now reply next
  /-- An image is pulled. -/
  | pulled {reply : Reply} {next : Session} (image : String)
      (signals : reply.signals = if image = bootstrapImage then [.done Task.pull] else [])
      (resources : next.resources = s.resources.addImage image) : Effect s now reply next
  /-- A container of a pulled image is started. -/
  | started {reply : Reply} {next : Session} (request : RunRequest)
      (image : s.resources.hasImage request.image = true)
      (signals : reply.signals = if isCanonicalRun request then [.done Task.run] else [])
      (resources : next.resources =
        s.resources.putContainer (startedContainer request.name request.image request.ports now)) :
      Effect s now reply next
  /-- The log of a container is shown. -/
  | shown {reply : Reply} {next : Session} (name : String)
      (container : (s.resources.container? name).isSome = true)
      (signals : reply.signals = [.done Task.logs])
      (resources : next.resources = s.resources) : Effect s now reply next

variable (s : Session) (now : TimeOfDay)

theorem effect_pull (image : String) : Effect s now (s.pull image).1 (s.pull image).2 := by
  refine .pulled image ?_ rfl
  unfold pull
  split <;> rfl

theorem effect_run (request : RunRequest) :
    Effect s now (s.run request now).1 (s.run request now).2 := by
  unfold run
  by_cases h : s.resources.hasImage request.image = true
  · rw [if_pos h]
    refine .started request h ?_ rfl
    split <;> rfl
  · rw [if_neg h]
    exact .quiet rfl rfl

theorem effect_logs (name : String) : Effect s now (s.logs name) s := by
  unfold logs
  cases h : s.resources.container? name with
  | none => exact .quiet rfl rfl
  | some c => exact .shown name (h ▸ rfl) rfl rfl

theorem effect_perform (command : Command) :
    Effect s now (s.perform now command).1 (s.perform now command).2 := by
  cases command with
  | pull image =>
      cases image with
      | none => exact .quiet rfl rfl
      | some image => exact effect_pull s now image
  | run request =>
      cases request with
      | none => exact .quiet rfl rfl
      | some request => exact effect_run s now request
  | logs name =>
      cases name with
      | none => exact .quiet rfl rfl
      | some name => exact effect_logs s now name
  | blank | help | clear | hint | images | ps | unknown => exact .quiet rfl rfl

theorem effect_interpret (line : String) :
    Effect s now (s.interpret line now).1 (s.interpret line now).2 :=
  effect_perform s now (.ofLine line)

variable {s now} {reply : Reply} {next : Session}

theorem Effect.hasImage_mono (h : Effect s now reply next) {image : String}
    (hi : s.resources.hasImage image = true) : next.resources.hasImage image = true := by
  cases h with
  | quiet _ hr => rwa [hr]
  | pulled pulled _ hr => rw [hr, Resources.hasImage_addImage, hi, Bool.or_true]
  | started request _ _ hr => rwa [hr, Resources.hasImage_putContainer]
  | shown _ _ _ hr => rwa [hr]

theorem Effect.signals_completed (h : Effect s now reply next) :
    ∀ signal ∈ reply.signals, signal.completed = true := by
  intro signal hmem
  have hdone : ∃ task, signal = .done task := by
    cases h with
    | quiet hs _ => rw [hs] at hmem; cases hmem
    | pulled _ hs _ =>
        rw [hs] at hmem
        split at hmem
        · exact ⟨_, List.mem_singleton.1 hmem⟩
        · cases hmem
    | started _ _ hs _ =>
        rw [hs] at hmem
        split at hmem
        · exact ⟨_, List.mem_singleton.1 hmem⟩
        · cases hmem
    | shown _ _ hs _ => rw [hs] at hmem; exact ⟨_, List.mem_singleton.1 hmem⟩
  obtain ⟨task, rfl⟩ := hdone
  rfl

theorem Effect.container?_mono (h : Effect s now reply next) {name : String}
    (hc : (s.resources.container? name).isSome = true) :
    (next.resources.container? name).isSome = true := by
  cases h with
  | quiet _ hr => rwa [hr]
  | pulled image _ hr => rwa [hr, Resources.container?_addImage]
  | started request hi _ hr =>
      rw [hr, Resources.container?_putContainer hi]
      split
      · rfl
      · exact hc
  | shown _ _ _ hr => rwa [hr]

theorem Effect.container_named (h : Effect s now reply next)
    (hs : ∀ name c, s.resources.container? name = some c → c.name = name) (name : String)
    (c : Container) (hc : next.resources.container? name = some c) : c.name = name := by
  cases h with
  | quiet _ hr => exact hs name c (hr ▸ hc)
  | pulled image _ hr => exact hs name c (by rwa [hr, Resources.container?_addImage] at hc)
  | started request hi _ hr =>
      rw [hr, Resources.container?_putContainer hi] at hc
      split at hc
      · rename_i hname
        cases hc
        exact hname.symm
      · exact hs name c hc
  | shown _ _ _ hr => exact hs name c (hr ▸ hc)

/-- A line that reports `pull` leaves the image of the level. -/
theorem Effect.hasImage_of_pull (h : Effect s now reply next)
    (hd : (TaskState.ofSignals reply.signals).isDone Task.pull = true) :
    next.resources.hasImage bootstrapImage = true := by
  cases h with
  | quiet hs _ => rw [hs] at hd; cases hd
  | pulled image hs hr =>
      rw [hs] at hd
      split at hd
      · rename_i himage
        rw [hr, himage, Resources.hasImage_addImage_self]
      · cases hd
  | started request _ hs _ =>
      rw [hs] at hd
      split at hd <;> cases hd
  | shown _ _ hs _ => rw [hs] at hd; cases hd

/-- A line that reports `run` leaves the image and the container of the level. -/
theorem Effect.resources_of_run (h : Effect s now reply next)
    (hd : (TaskState.ofSignals reply.signals).isDone Task.run = true) :
    next.resources.hasImage bootstrapImage = true ∧
      (next.resources.container? canonicalName).isSome = true := by
  cases h with
  | quiet hs _ => rw [hs] at hd; cases hd
  | pulled image hs _ =>
      rw [hs] at hd
      split at hd <;> cases hd
  | started request hi hs hr =>
      rw [hs] at hd
      split at hd
      · rename_i hcanonical
        simp only [isCanonicalRun, Bool.and_eq_true, decide_eq_true_eq] at hcanonical
        obtain ⟨⟨hname, -⟩, himage⟩ := hcanonical
        rw [hr]
        refine ⟨?_, ?_⟩
        · rw [Resources.hasImage_putContainer, ← himage, hi]
        · rw [Resources.container?_putContainer hi]
          exact (congrArg Option.isSome (if_pos hname.symm)).trans rfl
      · cases hd
  | shown _ _ hs _ => rw [hs] at hd; cases hd

/-! ### Restoring -/

section
variable (s : Session) (tasks : TaskState) (now : TimeOfDay)

/-- The resources after restoring, case by case. -/
theorem restore_resources :
    (s.restore tasks now).resources =
      if tasks.isDone Task.run = true then
        if s.resources.container? canonicalName = none then
          (s.resources.addImage bootstrapImage).putContainer
            (startedContainer canonicalName bootstrapImage canonicalPorts now)
        else s.resources.addImage bootstrapImage
      else if tasks.isDone Task.pull = true then s.resources.addImage bootstrapImage
      else s.resources := by
  unfold restore
  cases hrun : tasks.isDone Task.run with
  | true =>
      cases hc : s.resources.container? canonicalName with
      | none => simp [hc]
      | some c => simp [hc]
  | false => simp

theorem hasImage_restore (image : String) :
    (s.restore tasks now).resources.hasImage image =
      (((tasks.isDone Task.pull || tasks.isDone Task.run) && image == bootstrapImage) ||
        s.resources.hasImage image) := by
  rw [restore_resources]
  by_cases hrun : tasks.isDone Task.run = true
  · rw [if_pos hrun, hrun, Bool.or_true, Bool.true_and]
    split
    · rw [Resources.hasImage_putContainer, Resources.hasImage_addImage]
    · rw [Resources.hasImage_addImage]
  · rw [if_neg hrun, Bool.eq_false_iff.2 hrun, Bool.or_false]
    split
    · rename_i hpull
      rw [hpull, Bool.true_and, Resources.hasImage_addImage]
    · rename_i hpull
      rw [Bool.eq_false_iff.2 hpull, Bool.false_and, Bool.false_or]

/-- The containers after restoring: the one of the level is added when `run` is done and none of its
name is there. -/
theorem container?_restore (name : String) :
    (s.restore tasks now).resources.container? name =
      if tasks.isDone Task.run = true ∧ s.resources.container? canonicalName = none ∧
          name = canonicalName then
        some (startedContainer canonicalName bootstrapImage canonicalPorts now)
      else s.resources.container? name := by
  have himage : (s.resources.addImage bootstrapImage).hasImage bootstrapImage = true :=
    Resources.hasImage_addImage_self ..
  rw [restore_resources]
  by_cases hrun : tasks.isDone Task.run = true
  · rw [if_pos hrun]
    by_cases hc : s.resources.container? canonicalName = none
    · rw [if_pos hc, Resources.container?_putContainer himage, Resources.container?_addImage]
      simp only [hrun, hc, true_and]
      rfl
    · rw [if_neg hc, if_neg fun h => hc h.2.1, Resources.container?_addImage]
  · have hnone : ¬ (tasks.isDone Task.run = true ∧ s.resources.container? canonicalName = none ∧
        name = canonicalName) := fun h => hrun h.1
    rw [if_neg hrun, if_neg hnone]
    split <;> rfl

end

end Session

end EscapeRoom
