import EscapeRoom.Proofs.Announcement
import EscapeRoom.Proofs.Coherence
import EscapeRoom.Proofs.ScriptHistory

/-!
# Offline, tasks are earned by lines

Without a progress store a level takes lines only.  Whether a task is done can then be read off the
lines: `pull` when one of them pulled the image of the level, `run` when one of them started exactly
the container of the level, and `logs` when one of them asked for the log of a container that was
there.  A container needs its image and a log needs a container, so no task can be had without what
comes before it.

* `Occurs`, `FirstWith` — entries of a list with a property that may depend on the entries before.
* `Session.reports_pull_iff`, `Session.reports_run_iff`, `Session.reports_logs_iff` — the lines that
  report a task.
* `DockerLevel.offline`, `DockerLevel.isDone_offline_iff` — the level after a script, and its tasks.
* `DockerLevel.offline_tasks_are_earned` — how tasks, resources and lines belong together.
-/

namespace EscapeRoom

/-! ### Entries with a property -/

section
variable {α : Type}

/-- Some entry of a list has a property, which may depend on the entries before it. -/
def Occurs (P : List α → α → Prop) (xs : List α) : Prop :=
  ∃ earlier x later, xs = earlier ++ x :: later ∧ P earlier x

/-- An entry of a list is the first one with a property. -/
def FirstWith (P : List α → α → Prop) (earlier : List α) (x : α) : Prop :=
  P earlier x ∧ ¬ Occurs P earlier

variable {P : List α → α → Prop}

theorem not_occurs_nil : ¬ Occurs P [] := by
  rintro ⟨earlier, x, later, hsplit, -⟩
  exact List.append_ne_nil_of_right_ne_nil earlier (List.cons_ne_nil x later) hsplit.symm

theorem Occurs.append {xs : List α} (h : Occurs P xs) (ys : List α) : Occurs P (xs ++ ys) := by
  obtain ⟨earlier, x, later, rfl, hx⟩ := h
  exact ⟨earlier, x, later ++ ys, by rw [List.append_assoc, List.cons_append], hx⟩

theorem occurs_concat {xs : List α} {e : α} : Occurs P (xs ++ [e]) ↔ P xs e ∨ Occurs P xs := by
  constructor
  · rintro ⟨earlier, x, later, hsplit, hx⟩
    rcases concat_eq_append_cons.1 hsplit with ⟨-, rfl, rfl⟩ | ⟨middle, -, hxs⟩
    · exact .inl hx
    · exact .inr ⟨earlier, x, middle, hxs, hx⟩
  · rintro (he | hxs)
    · exact ⟨xs, e, [], rfl, he⟩
    · exact hxs.append [e]

theorem occurs_congr {Q : List α → α → Prop} (h : ∀ earlier x, P earlier x ↔ Q earlier x)
    {xs : List α} : Occurs P xs ↔ Occurs Q xs := by
  simp only [Occurs, h]

/-- When some entry has the property, there is a first one. -/
theorem exists_firstWith {xs : List α} (h : Occurs P xs) :
    ∃ earlier x later, xs = earlier ++ x :: later ∧ FirstWith P earlier x := by
  induction xs using List.reverseRecOn with
  | nil => exact absurd h not_occurs_nil
  | append_singleton xs e ih =>
      by_cases hxs : Occurs P xs
      · obtain ⟨earlier, x, later, hsplit, hx⟩ := ih hxs
        exact ⟨earlier, x, later ++ [e], by rw [hsplit, List.append_assoc, List.cons_append], hx⟩
      · rcases occurs_concat.1 h with he | hold
        · exact ⟨xs, e, [], rfl, he, hxs⟩
        · exact absurd hold hxs

end

/-! ### Lines that report a task -/

/-- The request that the level asks for. -/
def canonicalRequest : RunRequest := ⟨canonicalName, canonicalPorts, bootstrapImage⟩

/-- A request that was read counts for the level only if it is that one, for its ports are kept as
typed. -/
theorem isCanonicalRun_iff {line : String} {r : RunRequest} (h : runRequest? line = some r) :
    Session.isCanonicalRun r = true ↔ r = canonicalRequest := by
  constructor
  · intro hcanonical
    simp only [Session.isCanonicalRun, Bool.and_eq_true, decide_eq_true_eq] at hcanonical
    obtain ⟨⟨hname, htext⟩, himage⟩ := hcanonical
    obtain ⟨opts, -, -, -, hports, -⟩ :=
      RunRequest.ofWords?_eq_some_iff.1 (ofWords?_of_runRequest? h)
    obtain ⟨raw, -, hraw⟩ := Option.bind_eq_some_iff.1 hports
    obtain ⟨hhost, hcontainer, -⟩ := PortMapping.ofText?_eq_some_iff.1 hraw
    have hsame : r.ports = canonicalPorts := by
      have hread := PortMapping.ofText?_text hhost hcontainer
      rw [htext, PortMapping.ofText?_text (by decide) (by decide)] at hread
      exact (Option.some.inj hread).symm
    obtain ⟨name, ports, image⟩ := r
    cases hname
    cases hsame
    cases himage
    rfl
  · rintro rfl
    decide

namespace Session

/-- The tasks that a command reports as done. -/
def reported (s : Session) : Command → List String
  | .pull (some image) => if image = bootstrapImage then [Task.pull] else []
  | .run (some request) =>
      if s.resources.hasImage request.image && isCanonicalRun request then [Task.run] else []
  | .logs (some name) => if (s.resources.container? name).isSome then [Task.logs] else []
  | _ => []

variable (s : Session) (now : TimeOfDay)

theorem signals_perform (command : Command) :
    (s.perform now command).1.signals = (s.reported command).map .done := by
  cases command with
  | pull image =>
      cases image with
      | none => rfl
      | some image =>
          simp only [perform, pull, reported]
          split <;> rfl
  | run request =>
      cases request with
      | none => rfl
      | some request =>
          simp only [perform, run, reported, Bool.and_eq_true]
          by_cases himage : s.resources.hasImage request.image = true
          · by_cases hcanonical : isCanonicalRun request = true
            · simp only [himage, hcanonical, and_self, if_true]
              rfl
            · simp only [himage, hcanonical, if_true]
              rfl
          · simp only [himage]
            rfl
  | logs name =>
      cases name with
      | none => rfl
      | some name =>
          simp only [perform, logs, reported]
          cases s.resources.container? name <;> rfl
  | blank | help | clear | hint | images | ps | unknown => rfl

/-- Whether a line reports a task as done. -/
def Reports (e : String × TimeOfDay) (task : String) : Prop := task ∈ s.reported (.ofLine e.1)

theorem isDone_signals_iff (e : String × TimeOfDay) (task : String) :
    (TaskState.ofSignals (s.interpret e.1 e.2).1.signals).isDone task = true ↔
      s.Reports e task := by
  rw [interpret, signals_perform, TaskState.isDone_ofSignals, List.any_map, List.any_eq_true]
  simp [Reports, TaskSignal.done]

variable {s} {e : String × TimeOfDay}

theorem reports_pull_iff : s.Reports e Task.pull ↔ pulledImage? e.1 = some bootstrapImage := by
  rw [Reports, ← Command.pulledImage?_ofLine]
  generalize Command.ofLine e.1 = command
  cases command with
  | pull image => cases image <;> simp [reported, Command.pulledImage?]
  | run request => cases request <;> simp [reported, Command.pulledImage?, Task.pull, Task.run]
  | logs name => cases name <;> simp [reported, Command.pulledImage?, Task.pull, Task.logs]
  | blank | help | clear | hint | images | ps | unknown => simp [reported, Command.pulledImage?]

theorem reports_run_iff :
    s.Reports e Task.run ↔
      runRequest? e.1 = some canonicalRequest ∧ s.resources.hasImage bootstrapImage = true := by
  have hcanonical : s.Reports e Task.run ↔
      ∃ r, runRequest? e.1 = some r ∧ s.resources.hasImage r.image = true ∧
        isCanonicalRun r = true := by
    rw [Reports, ← Command.runRequest?_ofLine]
    generalize Command.ofLine e.1 = command
    cases command with
    | pull image => cases image <;> simp [reported, Command.runRequest?, Task.pull, Task.run]
    | run request => cases request <;> simp [reported, Command.runRequest?]
    | logs name => cases name <;> simp [reported, Command.runRequest?, Task.run, Task.logs]
    | blank | help | clear | hint | images | ps | unknown => simp [reported, Command.runRequest?]
  rw [hcanonical]
  constructor
  · rintro ⟨r, hrun, himage, hr⟩
    obtain rfl := (isCanonicalRun_iff hrun).1 hr
    exact ⟨hrun, himage⟩
  · rintro ⟨hrun, himage⟩
    exact ⟨canonicalRequest, hrun, himage, (isCanonicalRun_iff hrun).2 rfl⟩

theorem reports_logs_iff :
    s.Reports e Task.logs ↔
      ∃ name, viewedLog? e.1 = some name ∧ (s.resources.container? name).isSome = true := by
  rw [Reports, ← Command.viewedLog?_ofLine]
  generalize Command.ofLine e.1 = command
  cases command with
  | pull image => cases image <;> simp [reported, Command.viewedLog?, Task.pull, Task.logs]
  | run request => cases request <;> simp [reported, Command.viewedLog?, Task.run, Task.logs]
  | logs name => cases name <;> simp [reported, Command.viewedLog?]
  | blank | help | clear | hint | images | ps | unknown => simp [reported, Command.viewedLog?]

end Session

/-! ### Scripts -/

namespace Script

/-- A line pulls an image. -/
def PullsImage (image : String) (_ : Script) (e : String × TimeOfDay) : Prop :=
  pulledImage? e.1 = some image

/-- A line after some others starts exactly the container of the level. -/
def StartsCanonical (earlier : Script) (e : String × TimeOfDay) : Prop :=
  runRequest? e.1 = some canonicalRequest ∧ Pulls earlier bootstrapImage

/-- A line after some others asks for the log of a container that one of them started. -/
def ShowsLog (earlier : Script) (e : String × TimeOfDay) : Prop :=
  ∃ name, viewedLog? e.1 = some name ∧ Occurs (StartsNamed name) earlier

/-- A solution of the level: the image is pulled for the first time before its container is started
for the first time, and the log of some container is shown. -/
def IsSolution (script : Script) : Prop :=
  (∃ before pulled between ran after,
    script = (before ++ pulled :: between) ++ ran :: after ∧
    FirstWith (PullsImage bootstrapImage) before pulled ∧
    FirstWith StartsCanonical (before ++ pulled :: between) ran) ∧
  Occurs ShowsLog script

variable {script : Script}

theorem pulls_iff_occurs {image : String} :
    Pulls script image ↔ Occurs (PullsImage image) script := by
  constructor
  · rintro ⟨e, he, hpulled⟩
    obtain ⟨earlier, later, hsplit⟩ := List.append_of_mem he
    exact ⟨earlier, e, later, hsplit, hpulled⟩
  · rintro ⟨earlier, e, later, rfl, hpulled⟩
    exact ⟨e, List.mem_append_right _ List.mem_cons_self, hpulled⟩

theorem isSome_container?_iff_occurs {name : String} :
    ((Session.new.runScript script).resources.container? name).isSome = true ↔
      Occurs (StartsNamed name) script := by
  rw [Session.isSome_container?_runScript]
  simp only [Occurs, StartsNamed, exists_and_left]

/-- What is started was pulled before. -/
theorem Occurs.pulls {name : String} (h : Occurs (StartsNamed name) script) :
    ∃ image, Pulls script image := by
  obtain ⟨earlier, e, later, rfl, c, ⟨request, -, hpulled, -⟩, -⟩ := h
  exact ⟨_, pulls_iff_occurs.2 ((pulls_iff_occurs.1 hpulled).append _)⟩

end Script

/-! ### The level -/

namespace DockerLevel

open Script

/-- The level after lines, without a progress store. -/
def offline (script : Script) : DockerLevel := new.run (script.map fun e => .line e.1 e.2)

theorem offline_concat (script : Script) (e : String × TimeOfDay) :
    offline (script ++ [e]) = ((offline script).handleLine e.1 e.2).level := by
  rw [offline, offline, List.map_append, run, List.foldl_append]
  exact take_line_level _ _ _

section
variable (script : Script)

theorem session_offline : (offline script).session = Session.new.runScript script := by
  induction script using List.reverseRecOn with
  | nil => rfl
  | append_singleton script e ih =>
      rw [offline_concat, handleLine_session, ih, Session.runScript_concat]

/-- A task is done when some line reported it. -/
theorem isDone_offline_iff (task : String) :
    (offline script).tracker.tasks.isDone task = true ↔
      Occurs (fun earlier e => (Session.new.runScript earlier).Reports e task) script := by
  induction script using List.reverseRecOn with
  | nil =>
      have hnew : (offline []).tracker.tasks.isDone task = false :=
        TaskState.isDone_forLevel .docker task
      rw [hnew]
      exact ⟨fun h => Bool.noConfusion h, fun h => absurd h not_occurs_nil⟩
  | append_singleton script e ih =>
      rw [offline_concat, handleLine_tasks, TaskState.isDone_sup, Bool.or_eq_true, ih,
        handleLine_signals, session_offline, Session.isDone_signals_iff, occurs_concat, or_comm]

theorem isDone_pull_iff :
    (offline script).tracker.tasks.isDone Task.pull = true ↔ Pulls script bootstrapImage := by
  rw [isDone_offline_iff, pulls_iff_occurs]
  exact occurs_congr fun _ _ => Session.reports_pull_iff

theorem isDone_run_iff :
    (offline script).tracker.tasks.isDone Task.run = true ↔ Occurs StartsCanonical script := by
  rw [isDone_offline_iff]
  refine occurs_congr fun earlier e => ?_
  rw [Session.reports_run_iff, Session.hasImage_runScript, StartsCanonical]

theorem isDone_logs_iff :
    (offline script).tracker.tasks.isDone Task.logs = true ↔ Occurs ShowsLog script := by
  rw [isDone_offline_iff]
  refine occurs_congr fun earlier e => ?_
  simp only [Session.reports_logs_iff, isSome_container?_iff_occurs, ShowsLog]

theorem isTracked_offline : (offline script).IsTracked :=
  run_induction isTracked_new (fun _ input h => h.take input) _

/-- The level is finished by the solutions. -/
theorem isComplete_offline_iff : (offline script).isComplete = true ↔ IsSolution script := by
  have htasks : (offline script).isComplete = true ↔
      Pulls script bootstrapImage ∧ Occurs StartsCanonical script ∧ Occurs ShowsLog script := by
    rw [(isTracked_offline script).isComplete_eq, ← isDone_pull_iff, ← isDone_run_iff,
      ← isDone_logs_iff]
    simp [TaskState.allDone, Level.requiredTasks]
  rw [htasks]
  constructor
  · rintro ⟨-, hrun, hlogs⟩
    refine ⟨?_, hlogs⟩
    -- the first start of the container needs the image, so some pull stands before it
    obtain ⟨earlier, ran, after, rfl, hran⟩ := exists_firstWith hrun
    obtain ⟨before, pulled, between, rfl, hpulled⟩ :=
      exists_firstWith (pulls_iff_occurs.1 hran.1.2)
    exact ⟨before, pulled, between, ran, after, rfl, hpulled, hran⟩
  · rintro ⟨⟨before, pulled, between, ran, after, rfl, hpulled, hran⟩, hlogs⟩
    refine ⟨?_, ⟨_, ran, after, rfl, hran.1⟩, hlogs⟩
    rw [pulls_iff_occurs]
    exact Occurs.append ⟨before, pulled, between, rfl, hpulled.1⟩ _

end

/-- **Offline, tasks are earned by lines.**  After any lines, the image of the level is there
exactly when `pull` is done; with `run` done, `pull` is done and there is a container of the
expected name; with `logs` done, there is a container and an image; and the level is finished
exactly when some line was the first to pull the image, a later one the first to start exactly the
container of the level, and some line asked for the log of a container that an earlier one had
started. -/
theorem offline_tasks_are_earned (script : Script) :
    let l := offline script
    (l.session.resources.hasImage bootstrapImage = true ↔
      l.tracker.tasks.isDone Task.pull = true) ∧
    (l.tracker.tasks.isDone Task.run = true →
      l.tracker.tasks.isDone Task.pull = true ∧
      (l.session.resources.container? canonicalName).isSome = true) ∧
    (l.tracker.tasks.isDone Task.logs = true →
      (∃ name, (l.session.resources.container? name).isSome = true) ∧
      ∃ image, l.session.resources.hasImage image = true) ∧
    (l.isComplete = true ↔ IsSolution script) := by
  intro l
  refine ⟨?_, fun hrun => ⟨?_, (coherent_run _).container_of_run hrun⟩, fun hlogs => ?_,
    isComplete_offline_iff script⟩
  · rw [isDone_pull_iff, session_offline, Session.hasImage_runScript]
  · obtain ⟨earlier, ran, after, hsplit, -, hpulled⟩ := (isDone_run_iff script).1 hrun
    rw [isDone_pull_iff, hsplit, pulls_iff_occurs]
    exact (pulls_iff_occurs.1 hpulled).append _
  · obtain ⟨earlier, shown, after, hsplit, name, -, hstarted⟩ := (isDone_logs_iff script).1 hlogs
    have hthere : Occurs (StartsNamed name) script := hsplit ▸ hstarted.append _
    rw [session_offline]
    obtain ⟨image, hpulled⟩ := Occurs.pulls hthere
    exact ⟨⟨name, isSome_container?_iff_occurs.2 hthere⟩, image,
      (Session.hasImage_runScript script image).2 hpulled⟩

/-- The log of any container will do, also before the container of the level is started. -/
example :
    let now : TimeOfDay := ⟨12, 0, 0⟩
    (offline [("docker pull nginx", now), ("docker run --name a -p 1:2 nginx", now),
      ("docker logs a", now), ("docker run --name web -p 8080:80 nginx", now)]).isComplete =
        true := by
  decide +kernel

end DockerLevel

end EscapeRoom
