import EscapeRoom.Proofs.OfflineProgress
import EscapeRoom.Proofs.RunArguments

/-!
# Ports are kept as typed

Reading and writing ports are inverse to each other on one language: digits of ASCII, a colon, and
digits of ASCII, with no limit on their number or their value.  The level compares ports as they are
written, not as they were typed; that makes no difference, so a container counts for the level only
when its ports were typed as `8080:80`.

* `isNumeral_iff` — digits of ASCII.
* `PortMapping.exists_ofText?_iff` — the texts that denote ports.
* `RunWords.asksFor_canonical_iff`, `Session.mem_signals_run_iff` — the words that count for the
  level, and the lines.
* `PortMapping.ports_are_kept_as_typed` — reading, writing, and what is compared.
-/

namespace EscapeRoom

/-! ### Reading and writing -/

theorem isNumeral_iff {s : String} :
    IsNumeral s ↔ s ≠ "" ∧ ∀ c ∈ s.toList, '0' ≤ c ∧ c ≤ '9' := by
  have hdigit : ∀ c : Char, c.isDigit = true ↔ '0' ≤ c ∧ c ≤ '9' := by
    intro c
    rw [Char.isDigit, Bool.and_eq_true, decide_eq_true_eq, decide_eq_true_eq]
    rfl
  simp only [IsNumeral, hdigit, ne_eq, String.toList_eq_nil_iff]

theorem PortMapping.exists_ofText?_iff {raw : String} :
    (∃ p, ofText? raw = some p) ↔
      ∃ host container, IsNumeral host ∧ IsNumeral container ∧ raw = host ++ ":" ++ container := by
  simp only [ofText?_eq_some_iff]
  constructor
  · rintro ⟨p, hhost, hcontainer, rfl⟩
    exact ⟨p.host, p.container, hhost, hcontainer, rfl⟩
  · rintro ⟨host, container, hhost, hcontainer, rfl⟩
    exact ⟨⟨host, container⟩, hhost, hcontainer, rfl⟩

/-! ### What counts for the level -/

/-- The name and the image are compared as typed, and so are the ports, since they are written as
they were typed. -/
theorem RunWords.asksFor_canonical_iff {cut : RunWords} :
    cut.AsksFor canonicalRequest ↔
      cut.dangling = none ∧ (cut.values .name).getLast? = some "web" ∧
        cut.images.getLast? = some "nginx" ∧ (cut.values .ports).getLast? = some "8080:80" := by
  have hname : isContainerName canonicalName = true := by decide
  have hread : PortMapping.ofText? "8080:80" = some canonicalPorts := by decide
  obtain ⟨hhost, hcontainer, htext⟩ := PortMapping.ofText?_eq_some_iff.1 hread
  constructor
  · intro h
    exact ⟨h.dangling, h.name, h.image, htext ▸ h.ports⟩
  · rintro ⟨hdangling, hlast, himage, hports⟩
    exact ⟨hdangling, hlast, isContainerName_iff.1 hname, htext.symm ▸ hports, ⟨hhost, hcontainer⟩,
      himage⟩

theorem runRequest?_eq_some_iff {line : String} {r : RunRequest} :
    runRequest? line = some r ↔
      Text.startsWith "docker run" (Text.trimmed line) = true ∧
        (RunWords.split ((Text.wordsOf line).drop 2)).AsksFor r := by
  rw [← RunRequest.ofWords?_words_eq_some_iff, RunWords.words_split, runRequest?,
    Option.ite_none_right_eq_some]

namespace Session

variable {s : Session} {line : String} {now : TimeOfDay}

theorem mem_signals_iff {task : String} :
    TaskSignal.done task ∈ (s.interpret line now).1.signals ↔ s.Reports (line, now) task := by
  have hinjective : Function.Injective TaskSignal.done := by
    intro task other h
    exact congrArg TaskSignal.task h
  rw [interpret, signals_perform, List.mem_map_of_injective hinjective, Reports]

theorem mem_signals_run_iff :
    TaskSignal.done Task.run ∈ (s.interpret line now).1.signals ↔
      s.resources.hasImage "nginx" = true ∧
        Text.startsWith "docker run" (Text.trimmed line) = true ∧
        (RunWords.split ((Text.wordsOf line).drop 2)).AsksFor canonicalRequest := by
  rw [mem_signals_iff, reports_run_iff, runRequest?_eq_some_iff, and_comm]
  rfl

end Session

/-- **Ports are kept as typed.**  A text denotes ports exactly when it is digits of ASCII, a colon
and digits of ASCII, at least one on either side and nothing else.  What was read is written as it
was typed, and ports made of digits are read again from what is written.  So a line that starts a
container of the name and the image of the level reports the task exactly when its ports were typed
as `8080:80`. -/
theorem PortMapping.ports_are_kept_as_typed :
    (∀ digits, IsNumeral digits ↔ digits ≠ "" ∧ ∀ c ∈ digits.toList, '0' ≤ c ∧ c ≤ '9') ∧
    (∀ raw, (∃ p, ofText? raw = some p) ↔
      ∃ host container, IsNumeral host ∧ IsNumeral container ∧ raw = host ++ ":" ++ container) ∧
    (∀ raw p, ofText? raw = some p → p.text = raw) ∧
    (∀ p : PortMapping, IsNumeral p.host → IsNumeral p.container → ofText? p.text = some p) ∧
    ∀ (s : Session) (line : String) (now : TimeOfDay),
      let cut := RunWords.split ((Text.wordsOf line).drop 2)
      TaskSignal.done Task.run ∈ (s.interpret line now).1.signals ↔
        (s.resources.hasImage "nginx" = true ∧
          Text.startsWith "docker run" (Text.trimmed line) = true ∧
          cut.dangling = none ∧ (cut.values .name).getLast? = some "web" ∧
          cut.images.getLast? = some "nginx") ∧
        (cut.values .ports).getLast? = some "8080:80" := by
  refine ⟨fun _ => isNumeral_iff, fun _ => exists_ofText?_iff, ?_, fun _ => ofText?_text, ?_⟩
  · intro raw p h
    exact (ofText?_eq_some_iff.1 h).2.2
  · intro s line now cut
    rw [Session.mem_signals_run_iff, RunWords.asksFor_canonical_iff]
    simp only [and_assoc]
    rfl

/-- Leading zeros are kept, so these ports are others than those of the level. -/
theorem PortMapping.ports_with_leading_zero :
    let pulled : Session := ⟨Resources.empty.addImage "nginx", 0⟩
    ofText? "08080:80" = some ⟨"08080", "80"⟩ ∧
      (⟨"08080", "80"⟩ : PortMapping).text = "08080:80" ∧
      ofText? (⟨"99999", "80"⟩ : PortMapping).text = some ⟨"99999", "80"⟩ ∧
      TaskSignal.done Task.run ∈
        (pulled.interpret "docker run --name web -p 1:1 -p 8080:80 nginx" ⟨12, 0, 0⟩).1.signals ∧
      TaskSignal.done Task.run ∉
        (pulled.interpret "docker run --name web -p 08080:80 nginx" ⟨12, 0, 0⟩).1.signals := by
  intro pulled
  obtain ⟨-, -, htext, hread, hcounts⟩ := PortMapping.ports_are_kept_as_typed
  have hzero : ofText? "08080:80" = some ⟨"08080", "80"⟩ := by decide
  refine ⟨hzero, htext _ _ hzero, hread _ (by decide) (by decide), ?_, ?_⟩
  · exact (hcounts _ _ _).2 (by decide)
  · intro h
    exact absurd ((hcounts _ _ _).1 h).2 (by decide)

end EscapeRoom
