import EscapeRoom.Manifest.Rubric
import EscapeRoom.Manifest.Samples

/-!
# The shape of a verdict

A verdict lists the seven rules in their order, whether or not the text could be read.  Its checks,
its errors and the checklist that is made of it are three lists about the same rules: they agree
position by position, and also by name, because no two rules have the same one.

* `Manifest.IsReadable`, `Manifest.isReadable_iff` — the texts that are manifests.
* `Verdict.Reports` — the checks and the outcome of a verdict, rule by rule.
* `Verdict.passed_name_of_checks`, `Verdict.Reports.checklist_eq` — what is read from it by name.
* `verdict_is_shaped_by_rules` — the verdict on any text.
* `ok_checkManifest_passingManifest` — the manifest that is printed as a solution passes.
-/

namespace EscapeRoom

open Yaml

/-! ### Manifests -/

namespace Manifest

/-- Whether a text is a manifest: a blank document, or one with nothing or a mapping at its top. -/
def IsReadable (text : String) : Prop :=
  isBlankDocument text = true ∨ Tree.ofText text.toList = .ok .null ∨
    ∃ entries, Tree.ofText text.toList = .ok (.mapping entries)

theorem ofDocument_eq_ok_iff {text : String} {m : Manifest} :
    ofDocument text = .ok m ↔
      ∃ tree, Tree.ofText text.toList = .ok tree ∧ ofTree tree = .ok m := by
  unfold ofDocument
  split
  · rename_i tree hread
    simp [hread]
  · rename_i fault hread
    simp [hread]

theorem isReadable_iff {text : String} : IsReadable text ↔ ∃ m, ofText text = .ok m := by
  by_cases hblank : isBlankDocument text = true
  · exact ⟨fun _ => ⟨empty, if_pos hblank⟩, fun _ => .inl hblank⟩
  · have hread : ofText text = ofDocument text := if_neg hblank
    simp only [hread, ofDocument_eq_ok_iff]
    constructor
    · rintro (h | hnull | ⟨entries, hentries⟩)
      · exact absurd h hblank
      · exact ⟨empty, .null, hnull, rfl⟩
      · exact ⟨⟨entries⟩, .mapping entries, hentries, rfl⟩
    · rintro ⟨m, tree, htree, hm⟩
      cases tree with
      | null => exact .inr (.inl htree)
      | mapping entries => exact .inr (.inr ⟨entries, htree⟩)
      | bool | number | string | sequence | tagged => cases hm

theorem exists_error_of_not_isReadable {text : String} (h : ¬ IsReadable text) :
    ∃ e, ofText text = .error e := by
  rw [isReadable_iff] at h
  cases hread : ofText text with
  | error e => exact ⟨e, rfl⟩
  | ok m => exact absurd ⟨m, hread⟩ h

end Manifest

/-! ### Verdicts -/

namespace Verdict

/-- Whether a verdict reports for every rule, in their order, whether it passed. -/
structure Reports (v : Verdict) (passed : Rule → Bool) : Prop where
  checks : v.checks = Rule.all.map fun rule => ⟨rule.name, passed rule⟩
  ok : v.ok = Rule.all.all passed

/-- What is listed under the name of a rule is about that rule. -/
theorem passed_name_of_checks {v : Verdict} {passed : Rule → Bool}
    (h : v.checks = Rule.all.map fun rule => ⟨rule.name, passed rule⟩) (rule : Rule) :
    v.passed rule.name = passed rule := by
  rw [Bool.eq_iff_iff, Verdict.passed, h, List.any_map, List.any_eq_true]
  constructor
  · rintro ⟨other, -, hother⟩
    simp only [Function.comp_apply, Bool.and_eq_true, beq_iff_eq] at hother
    rw [← Rule.name_injective hother.1]
    exact hother.2
  · intro hpassed
    exact ⟨rule, rule.mem_all, by simp [hpassed]⟩

theorem reports_ofPlace (root : Place) : (ofPlace root).Reports (Rule.holds root) := ⟨rfl, rfl⟩

theorem reports_unparseable (detail : String) : (unparseable detail).Reports fun _ => false :=
  ⟨rfl, rfl⟩

/-- Any text gets a verdict that reports on every rule. -/
theorem exists_reports_checkManifest (text : String) :
    ∃ passed, (checkManifest text).Reports passed := by
  unfold checkManifest
  split
  · exact ⟨_, reports_ofPlace _⟩
  · exact ⟨_, reports_unparseable _⟩

namespace Reports

variable {v : Verdict} {passed : Rule → Bool} (h : v.Reports passed)
include h

theorem names : v.checks.map RuleCheck.name = Rule.all.map Rule.name := by
  rw [h.checks, List.map_map]
  rfl

theorem ok_iff_checks : v.ok = true ↔ ∀ check ∈ v.checks, check.passed = true := by
  rw [h.ok, h.checks, List.all_eq_true, List.forall_mem_map]

/-- What is reported under the name of a rule is about that rule. -/
theorem passed_name (rule : Rule) : v.passed rule.name = passed rule :=
  passed_name_of_checks h.checks rule

/-- The checklist marks the rules whose checks passed, also when the level is finished already. -/
theorem checklist_eq (complete : Bool) :
    checklist (some v) complete =
      List.zipWith (fun rule check => ⟨rule, check.passed⟩) Rule.all v.checks := by
  have hitems : checklist (some v) complete = Rule.all.map fun rule => ⟨rule, passed rule⟩ :=
    List.map_congr_left fun rule _ => congrArg (ChecklistItem.mk rule) (h.passed_name rule)
  rw [hitems, h.checks, List.zipWith_map_right, List.zipWith_self]

/-- A rule passed when the check at its place did. -/
theorem zip_checks :
    Rule.all.zip v.checks = Rule.all.map fun rule => (rule, ⟨rule.name, passed rule⟩) := by
  rw [h.checks]
  exact List.map_prod_left_eq_zip.symm

end Reports

theorem nodup_ruleErrors : (Rule.all.map Rule.error).Nodup := by decide

/-- A manifest gets the errors of the rules that fail, each of them once. -/
theorem errors_ofPlace (root : Place) :
    (ofPlace root).errors =
        (((Rule.all.zip (ofPlace root).checks).filter fun p => !p.2.passed).map fun p =>
          p.1.error) ∧
      (ofPlace root).errors.Nodup := by
  constructor
  · rw [(reports_ofPlace root).zip_checks, List.filter_map, List.map_map]
    rfl
  · have hsublist : List.Sublist (ofPlace root).errors (Rule.all.map Rule.error) :=
      List.filter_sublist.map Rule.error
    exact hsublist.nodup nodup_ruleErrors

theorem ok_ofPlace_iff (root : Place) : (ofPlace root).ok = true ↔ (ofPlace root).errors = [] := by
  show Rule.all.all (Rule.holds root) = true ↔
    (Rule.all.filter fun rule => !rule.holds root).map Rule.error = []
  rw [List.map_eq_nil_iff, List.filter_eq_nil_iff, List.all_eq_true]
  simp only [Bool.not_eq_true', Bool.not_eq_false]

end Verdict

/-- **The shape of a verdict.**  The verdict on any text names the seven rules in their order, and
is positive exactly when all of them passed and exactly when there are no errors.  A text that is no
manifest fails all of them with one error.  A manifest passes the rules that hold of it and gets the
errors of the others, in order and each once.  Whether or not the level is finished already, the
checklist marks the rules that passed. -/
theorem verdict_is_shaped_by_rules (text : String) :
    let v := checkManifest text
    v.checks.map RuleCheck.name =
      ["apiVersion", "kindDeployment", "metadataName", "replicas", "image", "probes",
        "resources"] ∧
    (v.ok = true ↔ ∀ check ∈ v.checks, check.passed = true) ∧
    (v.ok = true ↔ v.errors = []) ∧
    (¬ Manifest.IsReadable text →
      v.ok = false ∧ (∀ check ∈ v.checks, check.passed = false) ∧
      ∃ e, Manifest.ofText text = .error e ∧
        v.errors = ["document is not parseable: " ++ e.message]) ∧
    (Manifest.IsReadable text →
      (∃ m, Manifest.ofText text = .ok m ∧
        v.checks = Rule.all.map fun rule => ⟨rule.name, rule.holds m.root⟩) ∧
      v.errors =
        (((Rule.all.zip v.checks).filter fun p => !p.2.passed).map fun p => p.1.error) ∧
      v.errors.Nodup) ∧
    ∀ complete, checklist (some v) complete =
      List.zipWith (fun rule check => ⟨rule, check.passed⟩) Rule.all v.checks := by
  intro v
  by_cases hreadable : Manifest.IsReadable text
  · obtain ⟨m, hm⟩ := Manifest.isReadable_iff.1 hreadable
    have hv : v = .ofPlace m.root := by
      show checkManifest text = _
      rw [checkManifest, hm]
    have hreports := Verdict.reports_ofPlace m.root
    rw [hv]
    exact ⟨hreports.names, hreports.ok_iff_checks, Verdict.ok_ofPlace_iff m.root,
      fun hnot => absurd hreadable hnot, fun _ => ⟨⟨m, hm, hreports.checks⟩,
        Verdict.errors_ofPlace m.root⟩, hreports.checklist_eq⟩
  · obtain ⟨e, he⟩ := Manifest.exists_error_of_not_isReadable hreadable
    have hv : v = .unparseable e.message := by
      show checkManifest text = _
      rw [checkManifest, he]
    have hreports := Verdict.reports_unparseable e.message
    have hfailed : ∀ check ∈ (Verdict.unparseable e.message).checks, check.passed = false := by
      rw [hreports.checks, List.forall_mem_map]
      exact fun _ _ => rfl
    have hok : (Verdict.unparseable e.message).ok = true ↔
        (Verdict.unparseable e.message).errors = [] :=
      ⟨fun h => Bool.noConfusion h, fun h => absurd h (List.cons_ne_nil _ _)⟩
    rw [hv]
    exact ⟨hreports.names, hreports.ok_iff_checks, hok, fun _ => ⟨rfl, hfailed, e, he, rfl⟩,
      fun h => absurd h hreadable, hreports.checklist_eq⟩

/-! ### A manifest that passes -/

theorem eq_ok_of_toOption {ε α : Type} {e : Except ε α} {a : α} (h : e.toOption = some a) :
    e = .ok a := by
  cases e with
  | error e => cases h
  | ok b => exact congrArg Except.ok (Option.some.inj h)

/-- A manifest passes if a mapping with all that the rules ask for is read. -/
theorem ok_checkManifest_of_tree {text : String}
    (hblank : Manifest.isBlankDocument text = false)
    (hpasses : ((Tree.ofText text.toList).toOption.bind fun tree =>
      (Manifest.ofTree tree).toOption).any (fun m => (Verdict.ofPlace m.root).ok) = true) :
    (checkManifest text).ok = true := by
  obtain ⟨m, hread, hok⟩ := (Option.any_eq_true _ _).1 hpasses
  obtain ⟨tree, htree, hm⟩ := Option.bind_eq_some_iff.1 hread
  have hmanifest : Manifest.ofText text = .ok m := by
    rw [Manifest.ofText, if_neg (Bool.eq_false_iff.1 hblank)]
    exact Manifest.ofDocument_eq_ok_iff.2 ⟨tree, eq_ok_of_toOption htree, eq_ok_of_toOption hm⟩
  rw [checkManifest, hmanifest]
  exact hok

/-- The manifest that is printed as a solution passes. -/
theorem ok_checkManifest_passingManifest : (checkManifest passingManifest).ok = true := by
  -- the kernel goes through the characters of the lines, not through the octets of the text
  refine ok_checkManifest_of_tree ?_ ?_
  · rw [Manifest.isBlankDocument, passingManifest, Text.toList_unlines]
    decide +kernel
  · rw [passingManifest, Text.toList_unlines]
    decide +kernel

end EscapeRoom
