import EscapeRoom.Proofs.SessionStep

/-!
# Restoring progress

Every answer of the store restores the session, each time from all the flags so far, and answers may
come late, twice or in another order.  This does no harm, as restoring acts on sessions the way
joining acts on task states: two restorations are one, from the joined flags, and the clock that
counts is that of the first one with `run` done.

* `Session.ext_find` — sessions in which the same is found are the same.
* `Session.hasImage_restore_of`, `Session.container?_restore_of` — what was there stays as it is.
* `Session.isSome_container?_restore`, `Session.putContainer?_restore` — with `run` done the
  container of the level is there in the end, as adding it never fails.
* `Session.restore_restore` — two restorations as one.
* `Session.restorations_only_add_and_join` — what follows from both.
-/

namespace EscapeRoom

/-- Resources in which the same images and containers are found are the same. -/
theorem Resources.ext_find {r s : Resources}
    (himages : ∀ image, r.hasImage image = s.hasImage image)
    (hcontainers : ∀ name, r.container? name = s.container? name) : r = s := by
  have hset : r.images = s.images := by
    apply OrderedSet.ext_mem
    intro image
    exact decide_eq_decide.1 (himages image)
  have hmap : r.containers = s.containers := OrderedMap.ext_get? hcontainers
  cases r
  cases s
  exact congrArg₂ mk hset hmap

namespace Session

theorem ext_find {s t : Session}
    (himages : ∀ image, s.resources.hasImage image = t.resources.hasImage image)
    (hcontainers : ∀ name, s.resources.container? name = t.resources.container? name)
    (hhint : s.hintCursor = t.hintCursor) : s = t :=
  ext_fields (Resources.ext_find himages hcontainers) hhint

variable {s : Session} {tasks : TaskState} (now : TimeOfDay)

/-! ### What was there stays, and what is added -/

theorem hasImage_restore_of {image : String} (h : s.resources.hasImage image = true) :
    (s.restore tasks now).resources.hasImage image = true := by
  rw [hasImage_restore, h, Bool.or_true]

/-- A container that is there is kept, also the one of the level. -/
theorem container?_restore_of {name : String} {c : Container}
    (h : s.resources.container? name = some c) :
    (s.restore tasks now).resources.container? name = some c := by
  rw [container?_restore, if_neg, h]
  rintro ⟨-, hmissing, rfl⟩
  rw [h] at hmissing
  cases hmissing

theorem image_of_hasImage_restore {image : String}
    (h : (s.restore tasks now).resources.hasImage image = true) :
    s.resources.hasImage image = true ∨ image = bootstrapImage := by
  rw [hasImage_restore, Bool.or_eq_true, Bool.and_eq_true, beq_iff_eq] at h
  exact h.symm.imp_right And.right

theorem container_of_container?_restore {name : String} {c : Container}
    (h : (s.restore tasks now).resources.container? name = some c) :
    s.resources.container? name = some c ∨
      name = canonicalName ∧
        c = startedContainer canonicalName bootstrapImage canonicalPorts now := by
  rw [container?_restore] at h
  split at h
  · rename_i hadded
    exact .inr ⟨hadded.2.2, (Option.some.inj h).symm⟩
  · exact .inl h

/-- With `run` done, a container of the name of the level is there. -/
theorem isSome_container?_restore (h : tasks.isDone Task.run = true) :
    ((s.restore tasks now).resources.container? canonicalName).isSome = true := by
  cases hbefore : s.resources.container? canonicalName with
  | none =>
      rw [container?_restore, if_pos ⟨h, hbefore, rfl⟩]
      rfl
  | some c =>
      rw [container?_restore_of now hbefore]
      rfl

/-- The container of the level is not refused, as its image has been added before. -/
theorem putContainer?_restore (hrun : tasks.isDone Task.run = true)
    (hmissing : s.resources.container? canonicalName = none) :
    (s.resources.addImage bootstrapImage).putContainer?
        (startedContainer canonicalName bootstrapImage canonicalPorts now) =
      some (s.restore tasks now).resources := by
  have himage : (s.resources.addImage bootstrapImage).hasImage bootstrapImage = true :=
    Resources.hasImage_addImage_self ..
  rw [restore_resources, if_pos hrun, if_pos hmissing, Resources.putContainer_eq himage]
  exact if_pos himage

/-! ### Restoring twice -/

/-- Without `run` the containers are left alone. -/
theorem container?_restore_of_not_run (h : ¬ tasks.isDone Task.run = true) (name : String) :
    (s.restore tasks now).resources.container? name = s.resources.container? name := by
  rw [container?_restore]
  exact if_neg fun hadded => h hadded.1

/-- The clock is only read for a container. -/
theorem restore_of_not_run (h : ¬ tasks.isDone Task.run = true) (later : TimeOfDay) :
    s.restore tasks later = s.restore tasks now := by
  apply ext_find
  · intro image
    rw [hasImage_restore, hasImage_restore]
  · intro name
    rw [container?_restore_of_not_run later h, container?_restore_of_not_run now h]
  · rfl

/-- **Two restorations are one**, from the joined flags.  If the first one has `run` done, it leaves
nothing for the second one to start. -/
theorem restore_restore (s : Session) (t u : TaskState) (now later : TimeOfDay) :
    (s.restore t now).restore u later =
      s.restore (t ⊔ u) (if t.isDone Task.run then now else later) := by
  apply ext_find
  · intro image
    simp only [hasImage_restore, TaskState.isDone_sup]
    cases image == bootstrapImage
    · simp
    · simp [Bool.or_assoc, Bool.or_left_comm, Bool.or_comm]
  · intro name
    by_cases hrun : t.isDone Task.run = true
    · have hthere := isSome_container?_restore (s := s) now hrun
      have hjoined : (t ⊔ u).isDone Task.run = true := by rw [TaskState.isDone_sup, hrun]; rfl
      rw [container?_restore, if_neg, container?_restore, container?_restore, if_pos hrun, hrun,
        hjoined]
      rintro ⟨-, hmissing, -⟩
      rw [hmissing] at hthere
      cases hthere
    · have hjoined : (t ⊔ u).isDone Task.run = u.isDone Task.run := by
        rw [TaskState.isDone_sup, Bool.eq_false_iff.2 hrun, Bool.false_or]
      rw [container?_restore, container?_restore_of_not_run now hrun,
        container?_restore_of_not_run now hrun, container?_restore, if_neg hrun, hjoined]
  · rfl

/-- Restoring from flags that were restored before changes nothing. -/
theorem restore_idem (s : Session) (tasks : TaskState) (now later : TimeOfDay) :
    (s.restore tasks now).restore tasks later = s.restore tasks now := by
  rw [restore_restore, sup_idem]
  by_cases hrun : tasks.isDone Task.run = true
  · rw [if_pos hrun]
  · rw [if_neg hrun]
    exact restore_of_not_run now hrun later

/-- At one time, restoring twice is restoring once from the merged flags. -/
theorem restore_merge (s : Session) (t u : TaskState) (now : TimeOfDay) :
    (s.restore t now).restore u now = s.restore (t.merge u) now := by
  rw [restore_restore, ite_self, TaskState.merge_eq_sup]

theorem restore_comm (s : Session) (t u : TaskState) (now : TimeOfDay) :
    (s.restore t now).restore u now = (s.restore u now).restore t now := by
  rw [restore_restore, restore_restore, ite_self, ite_self, sup_comm]

/-- At different times the log tells the time of the first restoration. -/
example :
    let run : TaskState := .ofList [(Task.run, true)]
    let logs : TaskState := .ofList [(Task.run, true), (Task.logs, true)]
    (new.restore run ⟨12, 0, 0⟩).restore logs ⟨12, 0, 1⟩ ≠
      (new.restore logs ⟨12, 0, 1⟩).restore run ⟨12, 0, 0⟩ := by
  decide

/-- **Restorations only add, and they join.**  Whatever a session holds: its images, its containers
and its hint stay as they are; what is added is at most the image and the container of the level;
restoring again changes nothing, at whatever time; restoring from one state and then from another
is, at one time, restoring in the other order or once from the merged state; and with `run` done a
container of the name of the level is there, which is never refused when it has to be added. -/
theorem restorations_only_add_and_join (s : Session) (t u : TaskState) (now later : TimeOfDay) :
    let r := s.restore t now
    (∀ image, s.resources.hasImage image = true → r.resources.hasImage image = true) ∧
    (∀ name c, s.resources.container? name = some c → r.resources.container? name = some c) ∧
    r.hintCursor = s.hintCursor ∧
    r.restore t later = r ∧
    r.restore u now = (s.restore u now).restore t now ∧
    r.restore u now = s.restore (t.merge u) now ∧
    (∀ image, r.resources.hasImage image = true →
      s.resources.hasImage image = true ∨ image = bootstrapImage) ∧
    (∀ name c, r.resources.container? name = some c →
      s.resources.container? name = some c ∨
        name = canonicalName ∧
          c = startedContainer canonicalName bootstrapImage canonicalPorts now) ∧
    (t.isDone Task.run = true →
      (r.resources.container? canonicalName).isSome = true ∧
      (s.resources.container? canonicalName = none →
        (s.resources.addImage bootstrapImage).putContainer?
            (startedContainer canonicalName bootstrapImage canonicalPorts now) =
          some r.resources)) := by
  intro r
  refine ⟨?_, ?_, rfl, s.restore_idem t now later, s.restore_comm t u now, s.restore_merge t u now,
    ?_, ?_, ?_⟩
  · intro image himage
    exact hasImage_restore_of now himage
  · intro name c hc
    exact container?_restore_of now hc
  · intro image himage
    exact image_of_hasImage_restore now himage
  · intro name c hc
    exact container_of_container?_restore now hc
  · intro hrun
    exact ⟨isSome_container?_restore now hrun, putContainer?_restore now hrun⟩

/-- With `run` and without `pull`, once where another container has the name of the level and once
where there is none. -/
theorem restorations_of_run_without_pull :
    let run : TaskState := .ofList [(Task.run, true)]
    let other : Container := startedContainer canonicalName "redis" ⟨"1", "2"⟩ ⟨11, 0, 0⟩
    let taken : Session := ⟨⟨.ofList ["redis"], .ofList [(canonicalName, other)]⟩, 1⟩
    let now : TimeOfDay := ⟨12, 0, 0⟩
    (run.isDone Task.run = true ∧ run.isDone Task.pull = false) ∧
      (taken.resources.container? canonicalName = some other ∧
        (taken.restore run now).resources.container? canonicalName = some other) ∧
      new.resources.container? canonicalName = none ∧
        (new.resources.addImage bootstrapImage).putContainer?
            (startedContainer canonicalName bootstrapImage canonicalPorts now) =
          some (new.restore run now).resources := by
  intro run other taken now
  have hrun : run.isDone Task.run = true := by decide
  have hother : taken.resources.container? canonicalName = some other := by decide
  have hmissing : new.resources.container? canonicalName = none := rfl
  obtain ⟨-, hkept, -⟩ := restorations_only_add_and_join taken run run now now
  obtain ⟨-, -, -, -, -, -, -, -, hadded⟩ := restorations_only_add_and_join new run run now now
  exact ⟨⟨hrun, by decide⟩, ⟨hother, hkept canonicalName other hother⟩, hmissing,
    (hadded hrun).2 hmissing⟩

end Session

end EscapeRoom
