import EscapeRoom.Proofs.LevelRun

/-!
# The session has what the tasks say

Tasks and resources change on different paths: a line changes both, an event joins remote flags to
the tasks and then restores the session, and a container may be replaced by another of its name.  On
all of them the session keeps what the completed tasks promise.

* `DockerLevel.Coherent` — the promise, as an invariant.
* `DockerLevel.coherent_run` — it holds after every run.
* `DockerLevel.tasks_backed_by_resources` — what a player has of it.
-/

namespace EscapeRoom.DockerLevel

/-- What the completed tasks promise about the session. -/
structure Coherent (l : DockerLevel) : Prop where
  /-- The tracker follows the container level. -/
  level : l.tracker.level = .docker
  /-- A pulled image is there. -/
  image_of_pull : l.tracker.tasks.isDone Task.pull = true →
    l.session.resources.hasImage bootstrapImage = true
  /-- The image of a container that ran is there. -/
  image_of_run : l.tracker.tasks.isDone Task.run = true →
    l.session.resources.hasImage bootstrapImage = true
  /-- A container that ran, or one that replaced it, is there. -/
  container_of_run : l.tracker.tasks.isDone Task.run = true →
    (l.session.resources.container? canonicalName).isSome = true
  /-- Containers stand under their own names. -/
  container_named : ∀ name c, l.session.resources.container? name = some c → c.name = name

theorem coherent_new : Coherent new where
  level := rfl
  image_of_pull h := absurd h (by decide)
  image_of_run h := absurd h (by decide)
  container_of_run h := absurd h (by decide)
  container_named _ _ h := nomatch h

/-- A line keeps the promise: what it reports as done, it has just done to the resources. -/
theorem Coherent.handleLine {l : DockerLevel} (h : Coherent l) (line : String) (now : TimeOfDay) :
    Coherent (l.handleLine line now).level := by
  have heffect := l.session.effect_interpret now line
  -- a done task was done before, and keeps its resources, or this line reported it
  have htasks : ∀ task, (l.handleLine line now).level.tracker.tasks.isDone task = true →
      l.tracker.tasks.isDone task = true ∨
        (TaskState.ofSignals (l.session.interpret line now).1.signals).isDone task = true := by
    intro task hd
    rw [handleLine_tasks, TaskState.isDone_sup, Bool.or_eq_true, handleLine_signals] at hd
    exact hd
  refine ⟨?_, ?_, ?_, ?_, ?_⟩
  · rw [handleLine_tracker, recordAll_level]
    exact h.level
  · intro hd
    rw [handleLine_session]
    rcases htasks _ hd with hbefore | hreported
    · exact heffect.hasImage_mono (h.image_of_pull hbefore)
    · exact heffect.hasImage_of_pull hreported
  · intro hd
    rw [handleLine_session]
    rcases htasks _ hd with hbefore | hreported
    · exact heffect.hasImage_mono (h.image_of_run hbefore)
    · exact (heffect.resources_of_run hreported).1
  · intro hd
    rw [handleLine_session]
    rcases htasks _ hd with hbefore | hreported
    · exact heffect.container?_mono (h.container_of_run hbefore)
    · exact (heffect.resources_of_run hreported).2
  · rw [handleLine_session]
    exact heffect.container_named h.container_named

/-- Restoring a session from any tasks makes good what they promise. -/
theorem coherent_restore {s : Session} {t : Tracker} (hlevel : t.level = .docker)
    (hnamed : ∀ name c, s.resources.container? name = some c → c.name = name) (now : TimeOfDay) :
    Coherent ⟨s.restore t.tasks now, t⟩ where
  level := hlevel
  image_of_pull hd := by
    have hpull : t.tasks.isDone Task.pull = true := hd
    simp [Session.hasImage_restore, hpull]
  image_of_run hd := by
    have hrun : t.tasks.isDone Task.run = true := hd
    simp [Session.hasImage_restore, hrun]
  container_of_run hd := by
    rw [Session.container?_restore]
    split
    · rfl
    · -- not added, so a container of the name was there, of whatever image
      rename_i hpresent
      rw [Option.isSome_iff_ne_none]
      exact fun hnone => hpresent ⟨hd, hnone, rfl⟩
  container_named name c hc := by
    rw [Session.container?_restore] at hc
    split at hc
    · rename_i hadded
      cases hc
      exact hadded.2.2.symm
    · exact hnamed name c hc

/-- An event keeps the promise: flags from the store are followed by restoring the session. -/
theorem Coherent.handleEvent {l : DockerLevel} (h : Coherent l) (event : SyncEvent)
    (now : TimeOfDay) : Coherent (l.handleEvent event now).2 := by
  rcases l.handleEvent_session event now with hsession | hsame
  · have hrestored := coherent_restore
      (t := (l.handleEvent event now).2.tracker) ((l.handleEvent_level event now).trans h.level)
      h.container_named now
    rw [← hsession] at hrestored
    exact hrestored
  · rw [hsame]
    exact h

/-- **The promise holds after every run.** -/
theorem coherent_run (inputs : List LevelInput) : Coherent (new.run inputs) := by
  refine run_induction coherent_new ?_ inputs
  intro l input h
  cases input with
  | line text now =>
      rw [take_line_level]
      exact h.handleLine text now
  | event event now =>
      rw [take_event_level]
      exact h.handleEvent event now

/-! ### Reading the logs -/

/-- The signals of reading the log of the container that the level asks for. -/
theorem Coherent.signals_of_logs {l : DockerLevel} (h : Coherent l)
    (hrun : l.tracker.tasks.isDone Task.run = true) (now : TimeOfDay) :
    (l.handleLine "docker logs web" now).signals = [.done Task.logs] := by
  have hcommand : Command.ofLine "docker logs web" = .logs (some canonicalName) := by decide
  obtain ⟨c, hc⟩ := Option.isSome_iff_exists.1 (h.container_of_run hrun)
  rw [handleLine_signals, Session.interpret, hcommand]
  simp only [Session.perform, Session.logs, hc]
  rfl

/-- Reading that log completes `logs`, and with it the level when nothing else is missing. -/
theorem Coherent.logs_complete {l : DockerLevel} (h : Coherent l)
    (hrun : l.tracker.tasks.isDone Task.run = true) (now : TimeOfDay) :
    (l.handleLine "docker logs web" now).level.tracker.tasks.isDone Task.logs = true ∧
      (l.tracker.tasks.isDone Task.pull = true →
        (l.handleLine "docker logs web" now).level.isComplete = true) := by
  have htracker : (l.handleLine "docker logs web" now).level.tracker =
      (l.tracker.record (.done Task.logs)).2 := by
    rw [handleLine_tracker, h.signals_of_logs hrun now]
    rfl
  rw [isComplete, htracker, Tracker.isComplete_record, Tracker.record_tasks, h.level]
  have hlogs : (l.tracker.tasks ⊔ .ofSignals [.done Task.logs]).isDone Task.logs = true := by
    rw [TaskState.isDone_sup, TaskState.isDone_ofSignals]
    exact Bool.or_true _
  refine ⟨hlogs, fun hpull => ?_⟩
  have hkept : ∀ task, l.tracker.tasks.isDone task = true →
      (l.tracker.tasks ⊔ .ofSignals [.done Task.logs]).isDone task = true :=
    fun _ hd => TaskState.isDone_mono le_sup_left hd
  simp [TaskState.allDone, Level.requiredTasks, hlogs, hkept _ hpull, hkept _ hrun]

/-- **Completed tasks are backed by resources.**  After every run, a done `pull` comes with the
image, and a done `run` with the image and a container of the expected name; reading its log then
completes `logs`, and the level if `pull` is done too. -/
theorem tasks_backed_by_resources (inputs : List LevelInput) :
    let l := new.run inputs
    (l.tracker.tasks.isDone Task.pull = true →
      l.session.resources.hasImage bootstrapImage = true) ∧
    (l.tracker.tasks.isDone Task.run = true →
      l.session.resources.hasImage bootstrapImage = true ∧
      ∃ c, l.session.resources.container? canonicalName = some c ∧ c.name = canonicalName) ∧
    (l.tracker.tasks.isDone Task.run = true → ∀ now,
      let after := (l.handleLine "docker logs web" now).level
      after.tracker.tasks.isDone Task.logs = true ∧
      (l.tracker.tasks.isDone Task.pull = true → after.isComplete = true)) := by
  have h := coherent_run inputs
  refine ⟨h.image_of_pull, fun hrun => ?_, fun hrun now => h.logs_complete hrun now⟩
  obtain ⟨c, hc⟩ := Option.isSome_iff_exists.1 (h.container_of_run hrun)
  exact ⟨h.image_of_run hrun, c, hc, h.container_named _ c hc⟩

/-- The player runs another image under the name before the store reports `run` as done: the image
of the level is added, and the container that is there serves as well. -/
theorem backed_when_container_differs :
    let now : TimeOfDay := ⟨12, 0, 0⟩
    let inputs : List LevelInput :=
      [.line "docker pull httpd" now, .line "docker run --name web -p 80:80 httpd" now,
        .event (.loaded ⟨.ofList [(Task.run, true)], false, none⟩) now]
    let l := new.run inputs
    l.tracker.tasks.isDone Task.run = true ∧
      (l.session.resources.container? canonicalName).map Container.image = some "httpd" ∧
      l.session.resources.hasImage bootstrapImage = true ∧
      (l.handleLine "docker logs web" now).level.tracker.tasks.isDone Task.logs = true := by
  have hbacked := tasks_backed_by_resources
    [.line "docker pull httpd" ⟨12, 0, 0⟩, .line "docker run --name web -p 80:80 httpd" ⟨12, 0, 0⟩,
      .event (.loaded ⟨.ofList [(Task.run, true)], false, none⟩) ⟨12, 0, 0⟩]
  dsimp only at hbacked ⊢
  obtain ⟨-, hrun, hlogs⟩ := hbacked
  refine ⟨?done, ?image, (hrun ?done).1, (hlogs ?done ⟨12, 0, 0⟩).1⟩
  all_goals decide +kernel

end EscapeRoom.DockerLevel
