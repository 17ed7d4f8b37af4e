import EscapeRoom.Terminal.Command
import Mathlib.Data.List.TakeWhile

/-!
# What a container can be run with

A request to run a container has been read from words, and its name and its ports are well formed
by then: the name has the characters of names, and both ports are digits, kept as typed.

* `IsNumeral` — digits, at least one.
* `PortMapping.ofText?_eq_some_iff` — the texts that denote a port mapping, and which.
* `isContainerName_iff` — the characters of names.
* `RunRequest.ofWords?_eq_some_iff` — what is read from words.
-/

namespace EscapeRoom

/-! ### Ports -/

/-- Decimal digits, at least one. -/
def IsNumeral (s : String) : Prop := s.toList ≠ [] ∧ ∀ c ∈ s.toList, c.isDigit = true

instance (s : String) : Decidable (IsNumeral s) :=
  @instDecidableAnd _ _ _ (List.decidableBAll (fun c => c.isDigit = true) s.toList)

theorem isNumeral_ofList {cs : List Char} :
    IsNumeral (String.ofList cs) ↔ cs ≠ [] ∧ ∀ c ∈ cs, c.isDigit = true := by
  rw [IsNumeral, String.toList_ofList]

namespace PortMapping

theorem toList_text (p : PortMapping) :
    p.text.toList = p.host.toList ++ ':' :: p.container.toList := by
  rw [text, String.toList_append, String.toList_append]
  simp

/-- A mapping is read from its own text. -/
theorem ofText?_text {p : PortMapping} (hhost : IsNumeral p.host)
    (hcontainer : IsNumeral p.container) : ofText? p.text = some p := by
  have hcolon : ¬ Char.isDigit ':' = true := by decide
  have htake : p.text.toList.takeWhile Char.isDigit = p.host.toList := by
    rw [toList_text, List.takeWhile_append_of_pos hhost.2, List.takeWhile_cons_of_neg hcolon,
      List.append_nil]
  have hdrop : p.text.toList.dropWhile Char.isDigit = ':' :: p.container.toList := by
    rw [toList_text, List.dropWhile_append_of_pos hhost.2, List.dropWhile_cons_of_neg hcolon]
  have hdigits : p.container.toList.all Char.isDigit = true := List.all_eq_true.2 hcontainer.2
  have hshape : (p.host.toList.isEmpty || p.container.toList.isEmpty ||
      !p.container.toList.all Char.isDigit) = false := by
    simp [hhost.1, hcontainer.1, hdigits]
  simp only [ofText?, hdrop, htake, hshape, Bool.false_eq_true, if_false, String.ofList_toList]

/-- A text denotes a mapping when it is digits, a colon and digits, and then the mapping of these
digits. -/
theorem ofText?_eq_some_iff {raw : String} {p : PortMapping} :
    ofText? raw = some p ↔ IsNumeral p.host ∧ IsNumeral p.container ∧ p.text = raw := by
  constructor
  · intro h
    simp only [ofText?] at h
    split at h
    · rename_i container hdrop
      split at h
      · cases h
      · rename_i hshape
        simp only [Bool.or_eq_true, not_or, Bool.not_eq_true, List.isEmpty_eq_false_iff,
          Bool.not_eq_false'] at hshape
        obtain ⟨⟨hhost, hcontainer⟩, hdigits⟩ := hshape
        cases h
        refine ⟨isNumeral_ofList.2 ⟨hhost, ?_⟩, isNumeral_ofList.2 ⟨hcontainer, ?_⟩, ?_⟩
        · intro c hc
          exact List.mem_takeWhile_imp hc
        · exact List.all_eq_true.1 hdigits
        · apply String.toList_inj.1
          rw [toList_text, String.toList_ofList, String.toList_ofList, ← hdrop]
          exact List.takeWhile_append_dropWhile
    · cases h
  · rintro ⟨hhost, hcontainer, rfl⟩
    exact ofText?_text hhost hcontainer

end PortMapping

/-! ### Requests -/

theorem isContainerName_iff {name : String} :
    isContainerName name = true ↔
      name ≠ "" ∧ ∀ c ∈ name.toList, c.isAlphanum = true ∨ c = '_' ∨ c = '-' := by
  have hempty : name.toList.isEmpty = false ↔ name ≠ "" := by
    rw [List.isEmpty_eq_false_iff, ne_eq, ne_eq, String.toList_eq_nil_iff]
  simp only [isContainerName, Bool.and_eq_true, Bool.not_eq_true', hempty, List.all_eq_true,
    Bool.or_eq_true, beq_iff_eq, or_assoc]

theorem RunRequest.ofWords?_eq_some_iff {args : List String} {r : RunRequest} :
    ofWords? args = some r ↔
      ∃ opts, RunOptions.none.read args = some opts ∧ opts.name = some r.name ∧
        isContainerName r.name = true ∧ opts.ports.bind PortMapping.ofText? = some r.ports ∧
        opts.image = some r.image := by
  obtain ⟨name, ports, image⟩ := r
  simp only [ofWords?, Option.bind_eq_bind, Option.bind_eq_some_iff, Option.filter_eq_some_iff,
    Option.pure_def, Option.some.injEq, RunRequest.mk.injEq]
  constructor
  · rintro ⟨opts, hread, n, ⟨hname, hvalid⟩, p, hports, i, himage, rfl, rfl, rfl⟩
    exact ⟨opts, hread, hname, hvalid, hports, himage⟩
  · rintro ⟨opts, hread, hname, hvalid, hports, himage⟩
    exact ⟨opts, hread, name, ⟨hname, hvalid⟩, ports, hports, image, himage, rfl, rfl, rfl⟩

end EscapeRoom
