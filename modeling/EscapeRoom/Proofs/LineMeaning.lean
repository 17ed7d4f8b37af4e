import EscapeRoom.Proofs.RunRequest
import EscapeRoom.Proofs.SessionStep
import EscapeRoom.Proofs.Words

/-!
# What a line does, read off the line

Which command a line is depends on how it begins when trimmed, and the arguments are its words from
the third one on.  No line begins in two of these ways, so a line does one of three things to the
resources: it adds the image that it pulls, it puts the container that it asks for, or nothing.

* `pulledImage?`, `runRequest?`, `viewedLog?` — what a line asks for, said of the line itself.
* `Command.pulledImage?_ofLine`, `Command.runRequest?_ofLine`, `Command.viewedLog?_ofLine` — the
  recognized command asks for the same.
* `Session.resources_pull`, `Session.resources_run`, `Session.resources_other` — the resources after
  a line.
* `Session.hasImage_interpret`, `Session.container?_interpret_of_started` — the same, by name.
-/

namespace EscapeRoom

/-! ### Beginnings -/

/-- A line does not begin with two texts that part. -/
theorem Text.not_startsWith {a b line : String} (ha : startsWith a line = true)
    (hparts : ¬ (a.toList <+: b.toList ∨ b.toList <+: a.toList)) : ¬ startsWith b line = true := by
  intro hb
  have hbegins : a.toList <+: line.toList := List.isPrefixOf_iff_prefix.1 ha
  have hother : b.toList <+: line.toList := List.isPrefixOf_iff_prefix.1 hb
  exact hparts (List.prefix_or_prefix_of_prefix hbegins hother)

/-! ### What a line asks for -/

/-- The image that a line pulls: its third word, if it begins with `docker pull`. -/
def pulledImage? (line : String) : Option String :=
  if Text.startsWith "docker pull" (Text.trimmed line) then (Text.wordsOf line)[2]? else none

/-- What a line asks to run: what its words from the third one on say, if it begins with
`docker run` and they are well formed. -/
def runRequest? (line : String) : Option RunRequest :=
  if Text.startsWith "docker run" (Text.trimmed line) then
    RunRequest.ofWords? ((Text.wordsOf line).drop 2)
  else none

/-- The name whose log a line asks for: its third word, if it begins with `docker logs`. -/
def viewedLog? (line : String) : Option String :=
  if Text.startsWith "docker logs" (Text.trimmed line) then (Text.wordsOf line)[2]? else none

/-- What is pulled is a word. -/
theorem isWord_of_pulledImage? {line image : String} (h : pulledImage? line = some image) :
    Text.IsWord image.toList := by
  rw [pulledImage?] at h
  split at h
  · exact Text.isWord_of_mem_wordsOf (List.mem_of_getElem? h)
  · cases h

/-- What is run is well formed. -/
theorem ofWords?_of_runRequest? {line : String} {r : RunRequest} (h : runRequest? line = some r) :
    RunRequest.ofWords? ((Text.wordsOf line).drop 2) = some r := by
  rw [runRequest?] at h
  split at h
  · exact h
  · cases h

namespace Command

/-- The lines that are commands only as a whole. -/
def exactLines : List String := ["", "help", "clear", "hint", "docker images", "docker ps"]

section
variable {line : String}

theorem not_exact_of_startsWith {a : String} (h : Text.startsWith a line = true)
    (hexact : ∀ known ∈ exactLines, Text.startsWith a known = false) : line ∉ exactLines := by
  intro hmem
  have hline := hexact line hmem
  rw [h] at hline
  exact Bool.noConfusion hline

/-- Any other line is recognized by how it begins. -/
theorem ofTrimmed_of_not_exact (h : line ∉ exactLines) :
    ofTrimmed line =
      if Text.startsWith "docker pull" line then .pull ((Text.wordsOf line).drop 2).head?
      else if Text.startsWith "docker run" line then
        .run (RunRequest.ofWords? ((Text.wordsOf line).drop 2))
      else if Text.startsWith "docker logs" line then .logs ((Text.wordsOf line).drop 2).head?
      else .unknown line := by
  simp only [exactLines, List.mem_cons, List.not_mem_nil, or_false, not_or] at h
  obtain ⟨hblank, hhelp, hclear, hhint, himages, hps⟩ := h
  simp only [ofTrimmed, hblank, hhelp, hclear, hhint, himages, hps, if_false]

theorem ofTrimmed_pull (h : Text.startsWith "docker pull" line = true) :
    ofTrimmed line = .pull ((Text.wordsOf line).drop 2).head? := by
  rw [ofTrimmed_of_not_exact (not_exact_of_startsWith h (by decide)), if_pos h]

theorem ofTrimmed_run (h : Text.startsWith "docker run" line = true) :
    ofTrimmed line = .run (RunRequest.ofWords? ((Text.wordsOf line).drop 2)) := by
  have hpull : ¬ Text.startsWith "docker pull" line = true := Text.not_startsWith h (by decide)
  rw [ofTrimmed_of_not_exact (not_exact_of_startsWith h (by decide)), if_neg hpull, if_pos h]

theorem ofTrimmed_logs (h : Text.startsWith "docker logs" line = true) :
    ofTrimmed line = .logs ((Text.wordsOf line).drop 2).head? := by
  have hpull : ¬ Text.startsWith "docker pull" line = true := Text.not_startsWith h (by decide)
  have hrun : ¬ Text.startsWith "docker run" line = true := Text.not_startsWith h (by decide)
  rw [ofTrimmed_of_not_exact (not_exact_of_startsWith h (by decide)), if_neg hpull, if_neg hrun,
    if_pos h]

end

/-- The image that a command pulls. -/
def pulledImage? : Command → Option String
  | pull image => image
  | _ => none

/-- What a command asks to run. -/
def runRequest? : Command → Option RunRequest
  | run request => request
  | _ => none

/-- The name whose log a command asks for. -/
def viewedLog? : Command → Option String
  | logs name => name
  | _ => none

theorem pulledImage?_ofLine (line : String) :
    (ofLine line).pulledImage? = EscapeRoom.pulledImage? line := by
  rw [EscapeRoom.pulledImage?, ofLine]
  by_cases hpull : Text.startsWith "docker pull" (Text.trimmed line) = true
  · rw [if_pos hpull, ofTrimmed_pull hpull, Text.wordsOf_trimmed]
    exact List.head?_drop
  · -- no other rule gives a pull
    rw [if_neg hpull, ofTrimmed]
    split_ifs <;> rfl

/-- The beginning need not end with a word. -/
example : ofLine "  docker pullall nginx" = .pull (some "nginx") := by decide

theorem runRequest?_ofLine (line : String) :
    (ofLine line).runRequest? = EscapeRoom.runRequest? line := by
  rw [EscapeRoom.runRequest?, ofLine]
  by_cases hrun : Text.startsWith "docker run" (Text.trimmed line) = true
  · rw [if_pos hrun, ofTrimmed_run hrun, Text.wordsOf_trimmed]
    rfl
  · rw [if_neg hrun, ofTrimmed]
    split_ifs <;> rfl

theorem viewedLog?_ofLine (line : String) :
    (ofLine line).viewedLog? = EscapeRoom.viewedLog? line := by
  rw [EscapeRoom.viewedLog?, ofLine]
  by_cases hlogs : Text.startsWith "docker logs" (Text.trimmed line) = true
  · rw [if_pos hlogs, ofTrimmed_logs hlogs, Text.wordsOf_trimmed]
    exact List.head?_drop
  · rw [if_neg hlogs, ofTrimmed]
    split_ifs <;> rfl

/-- A line that asks for the log of a word is recognized as that. -/
theorem ofLine_logs {name : String} (h : Text.IsWord name.toList) :
    ofLine ("docker logs " ++ name) = .logs (some name) := by
  have htext : ("docker logs " ++ name).toList =
      'd' :: "ocker logs ".toList ++ name.toList := by
    rw [String.toList_append]
    rfl
  have htrimmed : Text.trimmed ("docker logs " ++ name) = "docker logs " ++ name := by
    rw [Text.trimmed, htext, Text.trim_of_ends (by decide) _ h, ← htext, String.ofList_toList]
  have hbegins : Text.startsWith "docker logs" ("docker logs " ++ name) = true := by
    have hsplit : ("docker logs " ++ name).toList = "docker logs".toList ++ ' ' :: name.toList := by
      rw [String.toList_append]
      rfl
    rw [Text.startsWith, hsplit]
    exact List.isPrefixOf_iff_prefix.2 (List.prefix_append _ _)
  have hwords : Text.wordsOf ("docker logs " ++ name) = ["docker", "logs", name] := by
    have hsplit : ("docker logs " ++ name).toList =
        "docker".toList ++ ' ' :: ("logs".toList ++ ' ' :: name.toList) := by
      rw [String.toList_append]
      rfl
    rw [Text.wordsOf, hsplit, Text.words_append_cons (by decide),
      Text.words_append_cons (by decide), Text.words_of_isWord (by decide),
      Text.words_of_isWord (by decide), Text.words_of_isWord h]
    simp
  rw [ofLine, htrimmed, ofTrimmed_logs hbegins, hwords]
  rfl

end Command

/-! ### What a line does -/

namespace Session

variable (s : Session) (now : TimeOfDay)

/-- A container is started in the resources, which leave it out when its image is missing. -/
theorem resources_run_request (request : RunRequest) :
    (s.run request now).2.resources =
      s.resources.putContainer (startedContainer request.name request.image request.ports now) := by
  unfold run
  by_cases h : s.resources.hasImage request.image = true
  · rw [if_pos h]
  · rw [if_neg h, Resources.putContainer_of_missing h]

theorem resources_pull {line image : String} (h : pulledImage? line = some image) :
    (s.interpret line now).2.resources = s.resources.addImage image := by
  rw [← Command.pulledImage?_ofLine] at h
  rw [interpret]
  generalize Command.ofLine line = command at h
  cases command with
  | pull pulled =>
      have hpulled : pulled = some image := h
      rw [hpulled]
      rfl
  | blank | help | clear | hint | images | ps | run | logs | unknown => cases h

theorem resources_run {line : String} {request : RunRequest} (h : runRequest? line = some request) :
    (s.interpret line now).2.resources =
      s.resources.putContainer (startedContainer request.name request.image request.ports now) := by
  rw [← Command.runRequest?_ofLine] at h
  rw [interpret]
  generalize Command.ofLine line = command at h
  cases command with
  | run asked =>
      have hasked : asked = some request := h
      rw [hasked]
      exact s.resources_run_request now request
  | blank | help | clear | hint | images | ps | pull | logs | unknown => cases h

/-- Every other line leaves the resources alone. -/
theorem resources_other {line : String} (hpull : pulledImage? line = none)
    (hrun : runRequest? line = none) : (s.interpret line now).2.resources = s.resources := by
  rw [← Command.pulledImage?_ofLine] at hpull
  rw [← Command.runRequest?_ofLine] at hrun
  rw [interpret]
  generalize Command.ofLine line = command at hpull hrun
  cases command with
  | pull pulled =>
      have hnone : pulled = none := hpull
      rw [hnone]
      rfl
  | run asked =>
      have hnone : asked = none := hrun
      rw [hnone]
      rfl
  | logs name => cases name <;> rfl
  | blank | help | clear | hint | images | ps | unknown => rfl

/-- The images after a line are those before it and the one that it pulls. -/
theorem hasImage_interpret (line image : String) :
    (s.interpret line now).2.resources.hasImage image = true ↔
      pulledImage? line = some image ∨ s.resources.hasImage image = true := by
  cases hpull : pulledImage? line with
  | some pulled =>
      rw [s.resources_pull now hpull, Resources.hasImage_addImage, Bool.or_eq_true, beq_iff_eq,
        Option.some.injEq, eq_comm]
  | none =>
      cases hrun : runRequest? line with
      | some request =>
          rw [s.resources_run now hrun, Resources.hasImage_putContainer]
          simp
      | none =>
          rw [s.resources_other now hpull hrun]
          simp

/-- A line replaces the container of a name when it asks for one and has its image. -/
theorem container?_interpret_of_started {line : String} {request : RunRequest}
    (hrun : runRequest? line = some request) (himage : s.resources.hasImage request.image = true)
    (name : String) :
    (s.interpret line now).2.resources.container? name =
      if name = request.name then
        some (startedContainer request.name request.image request.ports now)
      else s.resources.container? name := by
  rw [s.resources_run now hrun]
  exact Resources.container?_putContainer himage name

/-- A line that starts no container leaves all of them alone. -/
theorem container?_interpret_of_not_started {line : String}
    (h : ∀ request, runRequest? line = some request →
      ¬ s.resources.hasImage request.image = true) (name : String) :
    (s.interpret line now).2.resources.container? name = s.resources.container? name := by
  cases hpull : pulledImage? line with
  | some image =>
      rw [s.resources_pull now hpull]
      rfl
  | none =>
      cases hrun : runRequest? line with
      | some request =>
          have himage : ¬ s.resources.hasImage request.image = true := h request hrun
          rw [s.resources_run now hrun, Resources.putContainer_of_missing himage]
      | none => rw [s.resources_other now hpull hrun]

/-- Only a request for a hint moves on to the next one. -/
theorem hintCursor_perform {command : Command} (h : command ≠ .hint) :
    (s.perform now command).2.hintCursor = s.hintCursor := by
  cases command with
  | hint => exact absurd rfl h
  | pull image => cases image <;> rfl
  | run request =>
      cases request with
      | none => rfl
      | some request =>
          simp only [perform, run]
          split <;> rfl
  | logs name => cases name <;> rfl
  | blank | help | clear | images | ps | unknown => rfl

end Session

end EscapeRoom
