import EscapeRoom.Proofs.MachineRun
import EscapeRoom.Proofs.ScriptHistory

/-!
# Lines that only read

Most lines show something and leave the session as it is, so a script says the same without them.
A request for a hint does change the session, but only the number of the next hint, which nothing
else shows: without such requests all other lines are answered as before.

* `Command.ofLine_eq_hint_iff`, `OnlyReads` — requests for a hint, and lines that change nothing.
* `Session.interpret_congr` — apart from hints, a line depends on the resources alone.
* `Session.take`, `Session.transcript` — a line as a step, and the lines of a script with their
  replies.
* `Session.unnoticed_reads`, `Session.unnoticed_hints` — the lines that may be left out of a script.
* `Session.reply_of_hint_line` — the hints that a script is given.
* `Session.reading_lines_are_transparent` — the three together.
-/

namespace EscapeRoom

theorem Command.ofLine_eq_hint_iff {line : String} :
    ofLine line = .hint ↔ Text.trimmed line = "hint" := by
  constructor
  · intro h
    rw [ofLine, ofTrimmed] at h
    grind
  · intro h
    rw [ofLine, h]
    rfl

/-- A line that neither begins with `docker pull` or `docker run` nor asks for a hint. -/
def OnlyReads (line : String) : Prop :=
  ¬ Text.startsWith "docker pull" (Text.trimmed line) = true ∧
    ¬ Text.startsWith "docker run" (Text.trimmed line) = true ∧ Text.trimmed line ≠ "hint"

instance (line : String) : Decidable (OnlyReads line) := inferInstanceAs (Decidable (_ ∧ _ ∧ _))

namespace Session

/-! ### What a line changes and what it depends on -/

theorem hintCursor_interpret (s : Session) {line : String} (h : Text.trimmed line ≠ "hint")
    (now : TimeOfDay) : (s.interpret line now).2.hintCursor = s.hintCursor := by
  rw [interpret]
  exact s.hintCursor_perform now (mt Command.ofLine_eq_hint_iff.1 h)

theorem interpret_of_onlyReads (s : Session) {line : String} (h : OnlyReads line)
    (now : TimeOfDay) : (s.interpret line now).2 = s := by
  obtain ⟨hpull, hrun, hhint⟩ := h
  apply ext_fields
  · exact s.resources_other now (if_neg hpull) (if_neg hrun)
  · exact s.hintCursor_interpret hhint now

theorem interpret_of_hint (s : Session) {line : String} (h : Text.trimmed line = "hint")
    (now : TimeOfDay) : s.interpret line now = s.hint := by
  rw [interpret, Command.ofLine_eq_hint_iff.2 h]
  rfl

/-- What a command does to the resources and, apart from hints, what it is answered depends on the
resources alone. -/
theorem perform_congr {s t : Session} (h : s.resources = t.resources) (now : TimeOfDay)
    (command : Command) :
    (s.perform now command).2.resources = (t.perform now command).2.resources ∧
      (command ≠ .hint → (s.perform now command).1 = (t.perform now command).1) := by
  obtain ⟨resources, cursor⟩ := s
  obtain ⟨other, otherCursor⟩ := t
  cases h
  cases command with
  | hint => exact ⟨rfl, fun hother => absurd rfl hother⟩
  | pull image => cases image <;> exact ⟨rfl, fun _ => rfl⟩
  | run request =>
      cases request with
      | none => exact ⟨rfl, fun _ => rfl⟩
      | some request =>
          simp only [perform, run]
          split <;> exact ⟨rfl, fun _ => rfl⟩
  | logs name => cases name <;> exact ⟨rfl, fun _ => rfl⟩
  | blank | help | clear | images | ps | unknown => exact ⟨rfl, fun _ => rfl⟩

/-- Apart from requests for a hint, a line depends on the resources alone. -/
theorem interpret_congr {s t : Session} (h : s.resources = t.resources) (line : String)
    (now : TimeOfDay) :
    (s.interpret line now).2.resources = (t.interpret line now).2.resources ∧
      (Text.trimmed line ≠ "hint" → (s.interpret line now).1 = (t.interpret line now).1) := by
  rw [interpret, interpret]
  obtain ⟨hresources, hreply⟩ := perform_congr h now (.ofLine line)
  exact ⟨hresources, fun hhint => hreply (mt Command.ofLine_eq_hint_iff.1 hhint)⟩

/-! ### Scripts -/

/-- One line of a script. -/
def take (s : Session) (e : String × TimeOfDay) : Reply × Session := s.interpret e.1 e.2

/-- The lines of a script, each with the reply to it. -/
def transcript (s : Session) (script : Script) : List ((String × TimeOfDay) × Reply) :=
  EscapeRoom.transcript take s script

/-- A line that only reads is not noticed by any other line. -/
theorem unnoticed_reads : Unnoticed take Eq (fun e => OnlyReads e.1) fun _ => true where
  skip {s _ e} hst h := (s.interpret_of_onlyReads h e.2).trans hst
  keep e hst := by rw [hst]
  answer hst _ := by rw [hst]

/-- A request for a hint is not noticed by any line but another such request. -/
theorem unnoticed_hints :
    Unnoticed take (fun s t => s.resources = t.resources) (fun e => Text.trimmed e.1 = "hint")
      fun e => Text.trimmed e.1 != "hint" where
  skip {s t e} hst h := by
    have hnext : s.take e = s.hint := s.interpret_of_hint h e.2
    rw [hnext, ← hst]
    rfl
  keep {s t} e hst := by
    rw [take, take]
    exact (interpret_congr hst e.1 e.2).1
  answer {s t e} hst h := by
    rw [take, take]
    exact (interpret_congr hst e.1 e.2).2 (bne_iff_ne.1 h)

/-- Requests for a hint are answered with the next hint each, whatever stands between them, and the
last hint is repeated. -/
theorem reply_of_hint_line {s : Session} {script : Script} {k : Nat}
    {entry : (String × TimeOfDay) × Reply}
    (h : ((s.transcript script).filter fun e => Text.trimmed e.1.1 == "hint")[k]? = some entry) :
    entry.2 = .ofLine (hints.getD (min (s.hintCursor + k) lastHint) "") := by
  induction script generalizing s k with
  | nil => cases h
  | cons e rest ih =>
      rw [transcript, transcript_cons, List.filter_cons] at h
      by_cases hhint : Text.trimmed e.1 = "hint"
      · have hstep : s.take e = s.hint := s.interpret_of_hint hhint e.2
        rw [if_pos (beq_iff_eq.2 hhint), hstep] at h
        cases k with
        | zero =>
            cases h
            rfl
        | succ k =>
            -- the next request finds the number moved on, but not past the last one
            have hmoved : min (s.hint.2.hintCursor + k) lastHint =
                min (s.hintCursor + (k + 1)) lastHint := by
              show min (min (min s.hintCursor lastHint + 1) lastHint + k) lastHint = _
              omega
            rw [← hmoved]
            exact ih h
      · have hcursor : (s.take e).2.hintCursor = s.hintCursor := by
          rw [take]
          exact s.hintCursor_interpret hhint e.2
        rw [if_neg fun hbeq => hhint (beq_iff_eq.1 hbeq)] at h
        rw [← hcursor]
        exact ih h

/-- **Lines that only read are transparent.**  Some lines of a script are left out.  If all of these
only read, every other line is answered as before, and the session in the end is the same.  If all
of them ask for a hint, every other line that does not is answered as before, and the resources in
the end are the same.  A new session answers the requests for a hint, counted from zero, with the
hints of these numbers and then with the last one again. -/
theorem reading_lines_are_transparent (s : Session) (script : Script) (kept : Nat → Bool) :
    ((∀ e ∈ entriesAt (fun i => !kept i) script, OnlyReads e.1) →
      s.transcript (entriesAt kept script) = entriesAt kept (s.transcript script) ∧
      s.runScript (entriesAt kept script) = s.runScript script) ∧
    ((∀ e ∈ entriesAt (fun i => !kept i) script, Text.trimmed e.1 = "hint") →
      (s.transcript (entriesAt kept script)).filter (fun e => Text.trimmed e.1.1 != "hint") =
        (entriesAt kept (s.transcript script)).filter (fun e => Text.trimmed e.1.1 != "hint") ∧
      (s.runScript (entriesAt kept script)).resources = (s.runScript script).resources) ∧
    ∀ k entry,
      ((new.transcript script).filter fun e => Text.trimmed e.1.1 == "hint")[k]? = some entry →
      ∃ text, hints[min k lastHint]? = some text ∧ entry.2 = .ofLine text := by
  refine ⟨fun hreads => ?_, fun hhints => ?_, fun k entry hentry => ?_⟩
  · obtain ⟨htranscript, hlast⟩ := unnoticed_reads.run hreads (rfl : s = s)
    rw [List.filter_true, List.filter_true] at htranscript
    exact ⟨htranscript.symm, hlast.symm⟩
  · obtain ⟨htranscript, hlast⟩ := unnoticed_hints.run hhints (rfl : s.resources = s.resources)
    exact ⟨htranscript.symm, hlast.symm⟩
  · have hlt : min k lastHint < hints.length :=
      Nat.lt_of_le_of_lt (Nat.min_le_right k lastHint) (by decide)
    have hreply := reply_of_hint_line hentry
    have hcursor : new.hintCursor + k = k := Nat.zero_add k
    rw [hcursor, List.getD_eq_getElem?_getD, List.getElem?_eq_getElem hlt] at hreply
    exact ⟨hints[min k lastHint], List.getElem?_eq_getElem hlt, hreply⟩

/-- A script without its listings, without the first request for a hint, and with both requests. -/
theorem transparent_listings_and_hints :
    let now : TimeOfDay := ⟨12, 0, 0⟩
    let script : Script :=
      [("docker images", now), ("docker pull nginx", now), (" hint", now), ("docker ps", now),
        ("hint ", now)]
    let listings : Nat → Bool := fun i => i == 0 || i == 3
    let request : Nat → Bool := fun i => i == 2
    let asked := (new.transcript script).filter fun e => Text.trimmed e.1.1 == "hint"
    ((∀ e ∈ entriesAt (fun i => !!listings i) script, OnlyReads e.1) ∧
      new.runScript (entriesAt (fun i => !listings i) script) = new.runScript script) ∧
    ((∀ e ∈ entriesAt (fun i => !!request i) script, Text.trimmed e.1 = "hint") ∧
      (new.runScript (entriesAt (fun i => !request i) script)).resources =
        (new.runScript script).resources) ∧
    ∃ entry text, asked[1]? = some entry ∧ hints[1]? = some text ∧ entry.2 = .ofLine text := by
  intro now script listings request asked
  have hlistings : ∀ e ∈ entriesAt (fun i => !!listings i) script, OnlyReads e.1 := by decide
  have hrequest : ∀ e ∈ entriesAt (fun i => !!request i) script, Text.trimmed e.1 = "hint" := by
    decide
  have hasked : asked[1]? = some (("hint ", now), .ofLine hints[1]) := by decide
  obtain ⟨hreads, -, hnumbers⟩ := reading_lines_are_transparent new script fun i => !listings i
  obtain ⟨-, hhints, -⟩ := reading_lines_are_transparent new script fun i => !request i
  obtain ⟨text, htext, hreply⟩ := hnumbers 1 _ hasked
  exact ⟨⟨hlistings, (hreads hlistings).2⟩, ⟨hrequest, (hhints hrequest).2⟩,
    ⟨_, text, hasked, htext, hreply⟩⟩

end Session

end EscapeRoom
