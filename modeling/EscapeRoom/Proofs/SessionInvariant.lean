import EscapeRoom.Proofs.LineMeaning

/-!
# Sound sessions

Whatever is typed into a terminal, and whatever progress is restored into it, its resources make
sense: each container stands under its own name, was started from an image that is there and has the
three lines of its log, every image is a word, and the number of the next hint is that of a hint.

* `Container.IsWellFormed`, `Session.IsSound` — the invariant.
* `Session.IsSound.interpret`, `Session.IsSound.restore` — a line and a restoration keep it.
* `Session.every_session_is_sound` — so does any sequence of both.
-/

namespace EscapeRoom

/-! ### The invariant -/

/-- A container as `docker run` starts it: its name has the characters of names, its ports are
digits, it runs, and its log tells its name, its image and its port. -/
structure Container.IsWellFormed (c : Container) : Prop where
  name_ne : c.name ≠ ""
  name_chars : ∀ d ∈ c.name.toList, d.isAlphanum = true ∨ d = '_' ∨ d = '-'
  host : IsNumeral c.ports.host
  container : IsNumeral c.ports.container
  running : c.running = true
  logs : ∃ now : TimeOfDay,
    c.logs =
      ["[" ++ now.text ++ "] Starting " ++ c.name ++ " from " ++ c.image,
        "App listening on 0.0.0.0:" ++ c.ports.container,
        completionMarker]

/-- A session in which the containers and the images fit together. -/
structure Session.IsSound (s : Session) : Prop where
  /-- A container is stored under its own name. -/
  named : ∀ name c, s.resources.container? name = some c → c.name = name
  /-- The image of a container is there. -/
  pulled : ∀ name c, s.resources.container? name = some c → s.resources.hasImage c.image = true
  wellFormed : ∀ name c, s.resources.container? name = some c → c.IsWellFormed
  /-- An image is neither empty nor does it hold a blank. -/
  isWord : ∀ image, s.resources.hasImage image = true → Text.IsWord image.toList
  hint_le : s.hintCursor ≤ lastHint

theorem isWellFormed_startedContainer {name : String} (image : String) {ports : PortMapping}
    (now : TimeOfDay) (hname : isContainerName name = true) (hhost : IsNumeral ports.host)
    (hcontainer : IsNumeral ports.container) :
    (startedContainer name image ports now).IsWellFormed where
  name_ne := (isContainerName_iff.1 hname).1
  name_chars := (isContainerName_iff.1 hname).2
  host := hhost
  container := hcontainer
  running := rfl
  logs := ⟨now, rfl⟩

/-- What a line asks to run is well formed. -/
theorem isWellFormed_of_runRequest? {line : String} {r : RunRequest}
    (h : runRequest? line = some r) (now : TimeOfDay) :
    (startedContainer r.name r.image r.ports now).IsWellFormed := by
  obtain ⟨opts, -, -, hname, hports, -⟩ :=
    RunRequest.ofWords?_eq_some_iff.1 (ofWords?_of_runRequest? h)
  obtain ⟨raw, -, hraw⟩ := Option.bind_eq_some_iff.1 hports
  obtain ⟨hhost, hcontainer, -⟩ := PortMapping.ofText?_eq_some_iff.1 hraw
  exact isWellFormed_startedContainer r.image now hname hhost hcontainer

namespace Session

theorem isSound_new : new.IsSound where
  named := fun _ _ h => nomatch h
  pulled := fun _ _ h => nomatch h
  wellFormed := fun _ _ h => nomatch h
  isWord := fun _ h => nomatch h
  hint_le := Nat.zero_le lastHint

/-! ### Steps -/

/-- Images that are words may be added, and containers that are well formed and have their image. -/
theorem IsSound.of_added {s next : Session} (h : s.IsSound)
    (hkept : ∀ image, s.resources.hasImage image = true → next.resources.hasImage image = true)
    (himages : ∀ image, next.resources.hasImage image = true →
      s.resources.hasImage image = true ∨ Text.IsWord image.toList)
    (hcontainers : ∀ name c, next.resources.container? name = some c →
      s.resources.container? name = some c ∨
        (c.name = name ∧ next.resources.hasImage c.image = true ∧ c.IsWellFormed))
    (hhint : next.hintCursor ≤ lastHint) : next.IsSound := by
  constructor
  case named =>
    intro name c hc
    rcases hcontainers name c hc with hold | ⟨hname, -, -⟩
    · exact h.named name c hold
    · exact hname
  case pulled =>
    intro name c hc
    rcases hcontainers name c hc with hold | ⟨-, himage, -⟩
    · exact hkept c.image (h.pulled name c hold)
    · exact himage
  case wellFormed =>
    intro name c hc
    rcases hcontainers name c hc with hold | ⟨-, -, hformed⟩
    · exact h.wellFormed name c hold
    · exact hformed
  case isWord =>
    intro image himage
    rcases himages image himage with hold | hword
    · exact h.isWord image hold
    · exact hword
  case hint_le => exact hhint

/-- No command moves the hints past the last one. -/
theorem hintCursor_interpret_le {s : Session} (h : s.hintCursor ≤ lastHint) (line : String)
    (now : TimeOfDay) : (s.interpret line now).2.hintCursor ≤ lastHint := by
  rw [interpret]
  by_cases hhint : Command.ofLine line = .hint
  · rw [hhint]
    show min (min s.hintCursor lastHint + 1) lastHint ≤ lastHint
    exact Nat.min_le_right _ _
  · rw [hintCursor_perform s now hhint]
    exact h

theorem IsSound.interpret {s : Session} (h : s.IsSound) (line : String) (now : TimeOfDay) :
    (s.interpret line now).2.IsSound := by
  have hkept : ∀ image, s.resources.hasImage image = true →
      (s.interpret line now).2.resources.hasImage image = true := by
    intro image himage
    exact (s.hasImage_interpret now line image).2 (.inr himage)
  apply h.of_added hkept
  · intro image himage
    rcases (s.hasImage_interpret now line image).1 himage with hpull | hold
    · exact .inr (isWord_of_pulledImage? hpull)
    · exact .inl hold
  · intro name c hc
    by_cases hstarts : ∃ request, runRequest? line = some request ∧
        s.resources.hasImage request.image = true
    · obtain ⟨request, hrun, himage⟩ := hstarts
      rw [s.container?_interpret_of_started now hrun himage] at hc
      split at hc
      · rename_i hname
        cases hc
        exact .inr ⟨hname.symm, hkept _ himage, isWellFormed_of_runRequest? hrun now⟩
      · exact .inl hc
    · left
      rw [← hc]
      symm
      apply s.container?_interpret_of_not_started now
      intro request hrun himage
      exact hstarts ⟨request, hrun, himage⟩
  · exact hintCursor_interpret_le h.hint_le line now

theorem IsSound.restore {s : Session} (h : s.IsSound) (tasks : TaskState) (now : TimeOfDay) :
    (s.restore tasks now).IsSound := by
  apply h.of_added
  · intro image himage
    rw [hasImage_restore, himage, Bool.or_true]
  · intro image himage
    rw [hasImage_restore, Bool.or_eq_true, Bool.and_eq_true, beq_iff_eq] at himage
    rcases himage with ⟨-, rfl⟩ | hold
    · exact .inr (by decide)
    · exact .inl hold
  · intro name c hc
    rw [container?_restore] at hc
    split at hc
    · rename_i hadded
      obtain ⟨hrun, -, hname⟩ := hadded
      cases hc
      refine .inr ⟨hname.symm, ?_, ?_⟩
      · rw [hasImage_restore, hrun, Bool.or_true]
        rfl
      · exact isWellFormed_startedContainer _ now (by decide) (by decide) (by decide)
    · exact .inl hc
  · exact h.hint_le

end Session

/-! ### Runs -/

/-- What happens to a session: a line is typed, or progress made elsewhere comes back. -/
inductive SessionEvent
  | line (text : String) (now : TimeOfDay)
  | restore (tasks : TaskState) (now : TimeOfDay)

namespace Session

/-- The session after an event. -/
def handle (s : Session) : SessionEvent → Session
  | .line text now => (s.interpret text now).2
  | .restore tasks now => s.restore tasks now

/-- The session after some events. -/
def handleAll (s : Session) (events : List SessionEvent) : Session := events.foldl handle s

theorem IsSound.handle {s : Session} (h : s.IsSound) (event : SessionEvent) :
    (s.handle event).IsSound := by
  cases event with
  | line text now => exact h.interpret text now
  | restore tasks now => exact h.restore tasks now

theorem IsSound.handleAll {s : Session} (h : s.IsSound) (events : List SessionEvent) :
    (s.handleAll events).IsSound := by
  induction events generalizing s with
  | nil => exact h
  | cons event events ih => exact ih (h.handle event)

/-- The reply to `hint` is the hint of the number that the session holds. -/
theorem IsSound.reply_hint {s : Session} (h : s.IsSound) (now : TimeOfDay) :
    ∃ text, hints[s.hintCursor]? = some text ∧ (s.interpret "hint" now).1 = .ofLine text := by
  have hlt : s.hintCursor < hints.length := Nat.lt_of_le_of_lt h.hint_le (by decide)
  have hcommand : Command.ofLine "hint" = .hint := by decide
  refine ⟨hints[s.hintCursor], List.getElem?_eq_getElem hlt, ?_⟩
  rw [Session.interpret, hcommand]
  show Reply.ofLine (hints.getD (min s.hintCursor lastHint) "") = _
  rw [Nat.min_eq_left h.hint_le, List.getD_eq_getElem?_getD, List.getElem?_eq_getElem hlt]
  rfl

/-- **Every session is sound.**  After any lines and any restorations of progress, each container
stands under its own name, was started from an image that is there and is well formed; every image
is a word; and `hint` shows one of the hints. -/
theorem every_session_is_sound (events : List SessionEvent) :
    let s := new.handleAll events
    s.IsSound ∧ ∀ now, ∃ text,
      hints[s.hintCursor]? = some text ∧ (s.interpret "hint" now).1 = .ofLine text := by
  intro s
  have hsound : s.IsSound := isSound_new.handleAll events
  exact ⟨hsound, hsound.reply_hint⟩

end Session

end EscapeRoom
