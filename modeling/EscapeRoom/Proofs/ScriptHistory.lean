import EscapeRoom.Proofs.LineMeaning

/-!
# The resources are what the script says

Which images and containers a terminal has after some lines can be read off the lines: an image is
there when a line pulled it, and the container of a name is the one that the last line started which
could.  A line can start a container when an earlier line pulled its image.

* `LastWith` — the last entry of a list with a property that may depend on the entries before it.
* `Script`, `Session.runScript`, `Script.Starts` — lines with their times, and the container that a
  line starts.
* `Session.hasImage_runScript`, `Session.container?_runScript` — images and containers by the lines.
* `Session.resources_are_what_the_script_says` — the same as a whole, with the logs that are shown.
-/

namespace EscapeRoom

/-! ### The last entry with a property -/

section
variable {α : Type}

/-- A list cut at an entry, seen from its end: the entry is the last one or stands before it. -/
theorem concat_eq_append_cons {xs earlier later : List α} {e x : α} :
    xs ++ [e] = earlier ++ x :: later ↔
      (later = [] ∧ earlier = xs ∧ x = e) ∨
        ∃ middle, later = middle ++ [e] ∧ xs = earlier ++ x :: middle := by
  constructor
  · intro h
    rcases List.eq_nil_or_concat later with rfl | ⟨middle, last, rfl⟩
    · have hends := List.append_inj' h rfl
      exact .inl ⟨rfl, hends.1.symm, (List.singleton_inj.1 hends.2).symm⟩
    · have hmoved : xs ++ [e] = (earlier ++ x :: middle) ++ [last] := by simpa using h
      have hends := List.append_inj' hmoved rfl
      rw [List.concat_eq_append, List.singleton_inj.1 hends.2]
      exact .inr ⟨middle, rfl, hends.1⟩
  · rintro (⟨rfl, rfl, rfl⟩ | ⟨middle, rfl, rfl⟩)
    · rfl
    · rw [List.append_assoc, List.cons_append]

/-- The last entry of a list with a property, which may depend on the entries before it. -/
def LastWith (P : List α → α → Prop) (xs earlier : List α) (x : α) : Prop :=
  ∃ later, xs = earlier ++ x :: later ∧ P earlier x ∧
    ∀ before y after, later = before ++ y :: after → ¬ P (earlier ++ x :: before) y

variable {P : List α → α → Prop}

theorem not_lastWith_nil {earlier : List α} {x : α} : ¬ LastWith P [] earlier x := by
  rintro ⟨later, hsplit, -⟩
  exact List.append_ne_nil_of_right_ne_nil earlier (List.cons_ne_nil x later) hsplit.symm

/-- One more entry is the last one with the property, or leaves the last one as it is. -/
theorem lastWith_concat {xs earlier : List α} {e x : α} :
    LastWith P (xs ++ [e]) earlier x ↔
      (P xs e ∧ earlier = xs ∧ x = e) ∨ (¬ P xs e ∧ LastWith P xs earlier x) := by
  constructor
  · rintro ⟨later, hsplit, hx, hnone⟩
    rcases concat_eq_append_cons.1 hsplit with ⟨rfl, rfl, rfl⟩ | ⟨middle, rfl, rfl⟩
    · exact .inl ⟨hx, rfl, rfl⟩
    · refine .inr ⟨hnone middle e [] rfl, middle, rfl, hx, ?_⟩
      intro before y after hmiddle
      apply hnone before y (after ++ [e])
      rw [hmiddle, List.append_assoc, List.cons_append]
  · rintro (⟨he, rfl, rfl⟩ | ⟨he, later, rfl, hx, hnone⟩)
    · refine ⟨[], rfl, he, ?_⟩
      intro before y after hnil
      exact absurd hnil.symm (List.append_ne_nil_of_right_ne_nil before (List.cons_ne_nil y after))
    · refine ⟨later ++ [e], by rw [List.append_assoc, List.cons_append], hx, ?_⟩
      intro before y after hlater
      rcases concat_eq_append_cons.1 hlater with ⟨rfl, rfl, rfl⟩ | ⟨middle, rfl, hmiddle⟩
      · exact he
      · exact hnone before y middle hmiddle

/-- When some entry has the property, there is a last one. -/
theorem exists_lastWith_iff {xs : List α} :
    (∃ earlier x, LastWith P xs earlier x) ↔
      ∃ earlier x later, xs = earlier ++ x :: later ∧ P earlier x := by
  constructor
  · rintro ⟨earlier, x, later, hsplit, hx, -⟩
    exact ⟨earlier, x, later, hsplit, hx⟩
  · rintro ⟨earlier, x, later, hsplit, hx⟩
    induction xs using List.reverseRecOn generalizing later with
    | nil =>
        exact absurd hsplit.symm
          (List.append_ne_nil_of_right_ne_nil earlier (List.cons_ne_nil x later))
    | append_singleton xs e ih =>
        by_cases he : P xs e
        · exact ⟨xs, e, lastWith_concat.2 (.inl ⟨he, rfl, rfl⟩)⟩
        · rcases concat_eq_append_cons.1 hsplit with ⟨-, rfl, rfl⟩ | ⟨middle, -, hxs⟩
          · exact absurd hx he
          · obtain ⟨first, last, hlast⟩ := ih middle hxs
            exact ⟨first, last, lastWith_concat.2 (.inr ⟨he, hlast⟩)⟩

end

/-! ### Scripts -/

/-- Lines, with the times at which they are typed. -/
abbrev Script := List (String × TimeOfDay)

/-- The session after some lines. -/
def Session.runScript (s : Session) (script : Script) : Session :=
  script.foldl (fun s e => (s.interpret e.1 e.2).2) s

theorem Session.runScript_concat (s : Session) (script : Script) (e : String × TimeOfDay) :
    s.runScript (script ++ [e]) = ((s.runScript script).interpret e.1 e.2).2 := by
  rw [runScript, List.foldl_append]
  rfl

namespace Script

/-- Whether a line pulls an image. -/
def Pulls (script : Script) (image : String) : Prop :=
  ∃ e ∈ script, pulledImage? e.1 = some image

/-- A line after some others starts a container: it asks for it, and its image was pulled. -/
def Starts (earlier : Script) (e : String × TimeOfDay) (c : Container) : Prop :=
  ∃ request, runRequest? e.1 = some request ∧ Pulls earlier request.image ∧
    c = startedContainer request.name request.image request.ports e.2

/-- A line after some others starts a container of a name. -/
def StartsNamed (name : String) (earlier : Script) (e : String × TimeOfDay) : Prop :=
  ∃ c, Starts earlier e c ∧ c.name = name

/-- A line starts one container at most. -/
theorem Starts.unique {earlier : Script} {e : String × TimeOfDay} {c d : Container}
    (hc : Starts earlier e c) (hd : Starts earlier e d) : c = d := by
  obtain ⟨request, hrun, -, rfl⟩ := hc
  obtain ⟨other, hother, -, rfl⟩ := hd
  rw [hrun] at hother
  rw [Option.some.inj hother]

theorem pulls_concat {script : Script} {e : String × TimeOfDay} {image : String} :
    Pulls (script ++ [e]) image ↔ pulledImage? e.1 = some image ∨ Pulls script image := by
  simp only [Pulls, List.mem_append, List.mem_singleton, or_and_right, exists_or, exists_eq_left]
  exact or_comm

end Script

namespace Session

open Script

/-- **The images are those that were pulled.** -/
theorem hasImage_runScript (script : Script) (image : String) :
    (new.runScript script).resources.hasImage image = true ↔ Pulls script image := by
  induction script using List.reverseRecOn with
  | nil =>
      constructor
      · intro h
        exact Bool.noConfusion h
      · rintro ⟨e, he, -⟩
        exact absurd he List.not_mem_nil
  | append_singleton script e ih => rw [runScript_concat, hasImage_interpret, ih, pulls_concat]

/-- A line that starts no container of a name leaves the container of that name alone. -/
theorem container?_of_not_startsNamed {script : Script} {e : String × TimeOfDay} {name : String}
    (h : ¬ StartsNamed name script e) :
    ((new.runScript script).interpret e.1 e.2).2.resources.container? name =
      (new.runScript script).resources.container? name := by
  by_cases hstarts : ∃ request, runRequest? e.1 = some request ∧
      (new.runScript script).resources.hasImage request.image = true
  · obtain ⟨request, hrun, himage⟩ := hstarts
    have hname : name ≠ request.name := by
      rintro rfl
      exact h ⟨_, ⟨request, hrun, (hasImage_runScript script _).1 himage, rfl⟩, rfl⟩
    rw [container?_interpret_of_started _ _ hrun himage, if_neg hname]
  · apply container?_interpret_of_not_started
    intro request hrun himage
    exact hstarts ⟨request, hrun, himage⟩

/-- **The container of a name is the last one that was started.** -/
theorem container?_runScript (script : Script) (name : String) (c : Container) :
    (new.runScript script).resources.container? name = some c ↔
      ∃ earlier e, LastWith (StartsNamed name) script earlier e ∧ Starts earlier e c := by
  induction script using List.reverseRecOn with
  | nil =>
      constructor
      · intro h
        cases h
      · rintro ⟨earlier, e, hlast, -⟩
        exact absurd hlast not_lastWith_nil
  | append_singleton script e ih =>
      rw [runScript_concat]
      simp only [lastWith_concat]
      by_cases hnamed : StartsNamed name script e
      · obtain ⟨d, hstarts, hname⟩ := id hnamed
        have hcontainer : ((new.runScript script).interpret e.1 e.2).2.resources.container? name =
            some d := by
          obtain ⟨request, hrun, hpulled, rfl⟩ := hstarts
          have himage := (hasImage_runScript script request.image).2 hpulled
          rw [container?_interpret_of_started _ _ hrun himage]
          exact if_pos hname.symm
        rw [hcontainer]
        constructor
        · intro h
          rw [← Option.some.inj h]
          exact ⟨script, e, .inl ⟨hnamed, rfl, rfl⟩, hstarts⟩
        · rintro ⟨earlier, x, ⟨-, rfl, rfl⟩ | ⟨hnot, -⟩, hc⟩
          · rw [hstarts.unique hc]
          · exact absurd hnamed hnot
      · rw [container?_of_not_startsNamed hnamed, ih]
        constructor
        · rintro ⟨earlier, x, hlast, hc⟩
          exact ⟨earlier, x, .inr ⟨hnamed, hlast⟩, hc⟩
        · rintro ⟨earlier, x, ⟨hx, -, -⟩ | ⟨-, hlast⟩, hc⟩
          · exact absurd hx hnamed
          · exact ⟨earlier, x, hlast, hc⟩

theorem isSome_container?_runScript (script : Script) (name : String) :
    ((new.runScript script).resources.container? name).isSome = true ↔
      ∃ earlier e later c, script = earlier ++ e :: later ∧ Starts earlier e c ∧ c.name = name := by
  have hlast : (∃ earlier e, LastWith (StartsNamed name) script earlier e) ↔ _ :=
    exists_lastWith_iff
  rw [Option.isSome_iff_exists]
  constructor
  · rintro ⟨c, hc⟩
    obtain ⟨earlier, e, ⟨later, hsplit, ⟨d, hd, hname⟩, -⟩, -⟩ := (container?_runScript ..).1 hc
    exact ⟨earlier, e, later, d, hsplit, hd, hname⟩
  · rintro ⟨earlier, e, later, c, hsplit, hc, hname⟩
    obtain ⟨first, last, h⟩ := hlast.2 ⟨earlier, e, later, hsplit, c, hc, hname⟩
    obtain ⟨d, hd, -⟩ := h.choose_spec.2.1
    exact ⟨d, (container?_runScript ..).2 ⟨first, last, h, hd⟩⟩

/-- A line that pulls nothing and starts nothing changes nothing. -/
theorem resources_of_not_starts {script : Script} {e : String × TimeOfDay}
    (hpull : pulledImage? e.1 = none) (hstarts : ∀ c, ¬ Starts script e c) :
    ((new.runScript script).interpret e.1 e.2).2.resources = (new.runScript script).resources := by
  cases hrun : runRequest? e.1 with
  | none => exact resources_other _ e.2 hpull hrun
  | some request =>
      rw [resources_run _ e.2 hrun]
      apply Resources.putContainer_of_missing
      intro himage
      exact hstarts _ ⟨request, hrun, (hasImage_runScript script _).1 himage, rfl⟩

/-- The reply to a line that asks for the log of a word. -/
theorem reply_logs (s : Session) {name : String} (h : Text.IsWord name.toList) (now : TimeOfDay) :
    (s.interpret ("docker logs " ++ name) now).1 = s.logs name := by
  rw [interpret, Command.ofLine_logs h]
  rfl

/-- **The resources are what the script says.**  After any lines, typed into a new terminal, the
images are those that a line pulled.  There is a container of a name when a line started one, and it
is the one that the last such line started; a line that pulls nothing and starts nothing leaves the
resources as they are.  A request for a log then shows the three lines of that container and
completes the task, or says that there is none. -/
theorem resources_are_what_the_script_says (script : Script) :
    let s := new.runScript script
    (∀ image, s.resources.hasImage image = true ↔
      ∃ e ∈ script, pulledImage? e.1 = some image) ∧
    (∀ name, (s.resources.container? name).isSome = true ↔
      ∃ earlier e later c, script = earlier ++ e :: later ∧ Starts earlier e c ∧ c.name = name) ∧
    (∀ name c, s.resources.container? name = some c ↔
      ∃ earlier e, LastWith (StartsNamed name) script earlier e ∧ Starts earlier e c) ∧
    (∀ line now, pulledImage? line = none → (∀ c, ¬ Starts script (line, now) c) →
      (s.interpret line now).2.resources = s.resources) ∧
    ∀ name, Text.IsWord name.toList → ∀ now,
      let reply := (s.interpret ("docker logs " ++ name) now).1
      (∀ earlier e c, LastWith (StartsNamed name) script earlier e → Starts earlier e c →
        reply = ⟨["[" ++ e.2.text ++ "] Starting " ++ name ++ " from " ++ c.image,
          "App listening on 0.0.0.0:" ++ c.ports.container, completionMarker], .append,
          [.done Task.logs]⟩) ∧
      ((∀ earlier e, ¬ LastWith (StartsNamed name) script earlier e) →
        reply = ⟨["No such container: " ++ name], .append, []⟩) := by
  intro s
  refine ⟨hasImage_runScript script, isSome_container?_runScript script,
    container?_runScript script, ?_, ?_⟩
  · intro line now hpull hstarts
    exact resources_of_not_starts (e := (line, now)) hpull hstarts
  · intro name hname now
    dsimp only
    rw [s.reply_logs hname now, logs]
    constructor
    · intro earlier e c hlast hc
      have hcontainer : s.resources.container? name = some c :=
        (container?_runScript script name c).2 ⟨earlier, e, hlast, hc⟩
      obtain ⟨-, -, ⟨d, hd, hnamed⟩, -⟩ := hlast
      rw [hd.unique hc] at hnamed
      obtain ⟨request, -, -, rfl⟩ := hc
      subst hnamed
      rw [hcontainer]
      rfl
    · intro hnone
      have hmissing : s.resources.container? name = none := by
        rw [Option.eq_none_iff_forall_ne_some]
        intro c hc
        obtain ⟨earlier, e, hlast, -⟩ := (container?_runScript script name c).1 hc
        exact hnone earlier e hlast
      rw [hmissing]
      rfl

/-- A run before the image is there, two runs of one name and a malformed one: the second of the two
counts. -/
theorem log_shown_of_last_run :
    let script : Script :=
      [("docker run --name web -p 80:80 nginx", ⟨12, 0, 1⟩), ("  docker pullall nginx", ⟨12, 0, 2⟩),
        ("docker run --name web -p 80:80 nginx", ⟨12, 0, 3⟩),
        ("docker run -p 1:2 --name old --name web -p 8080:81 nginx", ⟨12, 0, 4⟩),
        ("docker run --name web -p 8080 nginx", ⟨12, 0, 5⟩)]
    Text.IsWord "web".toList ∧
      ((new.runScript script).interpret ("docker logs " ++ "web") ⟨12, 0, 6⟩).1 =
        ⟨["[12:00:04] Starting web from nginx", "App listening on 0.0.0.0:81",
          "flag{docker-stage-1-ok}"], .append, [.done Task.logs]⟩ := by
  intro script
  have hname : Text.IsWord "web".toList := by decide
  let second : String × TimeOfDay :=
    ("docker run -p 1:2 --name old --name web -p 8080:81 nginx", ⟨12, 0, 4⟩)
  let malformed : String × TimeOfDay := ("docker run --name web -p 8080 nginx", ⟨12, 0, 5⟩)
  have hstarts : Starts (script.take 3) second
      (startedContainer "web" "nginx" ⟨"8080", "81"⟩ ⟨12, 0, 4⟩) := by
    refine ⟨⟨"web", ⟨"8080", "81"⟩, "nginx"⟩, by decide, ?_, rfl⟩
    exact ⟨("  docker pullall nginx", ⟨12, 0, 2⟩), by simp [script], by decide⟩
  have hlast : LastWith (StartsNamed "web") (script.take 3 ++ [second]) (script.take 3) second :=
    lastWith_concat.2 (.inl ⟨⟨_, hstarts, rfl⟩, rfl, rfl⟩)
  have hnone : ¬ StartsNamed "web" (script.take 3 ++ [second]) malformed := by
    rintro ⟨c, ⟨request, hrun, -⟩, -⟩
    have hmalformed : runRequest? malformed.1 = none := by decide
    rw [hmalformed] at hrun
    cases hrun
  have hstill : LastWith (StartsNamed "web") (script.take 3 ++ [second] ++ [malformed])
      (script.take 3) second := lastWith_concat.2 (.inr ⟨hnone, hlast⟩)
  obtain ⟨-, -, -, -, hlogs⟩ := resources_are_what_the_script_says script
  refine ⟨hname, ((hlogs "web" hname ⟨12, 0, 6⟩).1 _ _ _ hstill hstarts).trans ?_⟩
  decide

end Session

end EscapeRoom
