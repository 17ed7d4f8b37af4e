import EscapeRoom.Proofs.VerdictShape
import EscapeRoom.Proofs.Yaml.Range
import Mathlib.Control.Monad.Basic

/-!
# How many replicas are enough

The rule asks for an integer from two on.  A tree holds the integers of 64 bits with a sign and
those without one, but the rule sees an integer only if it has 64 bits with a sign.  So it passes
from two to `2 ^ 63 - 1`, and the integers from `2 ^ 63` on, which are more than enough, count as
none.

* `Place.IsRanged`, `Manifest.isRanged_root` — the integers of a manifest.
* `Rule.holds_replicas_iff` — when the rule holds.
* `replicas_pass_iff` — when it is reported as passed.
-/

namespace EscapeRoom

open Yaml

/-! ### The integers of a manifest -/

/-- Whether the integers below a place are in range. -/
def Place.IsRanged : Place → Prop
  | .absent => True
  | .present tree => tree.IsRanged

namespace Place

theorem isRanged_child (key : String) : ∀ {t : Tree}, t.IsRanged → (child key t).IsRanged
  | .mapping entries, h => by
      rw [child]
      cases hget : entries.get? key with
      | none => trivial
      | some t => exact Entries.IsRanged.get? h hget
  | .tagged _ inner, h => isRanged_child key (t := inner) h
  | .null, _ | .bool _, _ | .number _, _ | .string _, _ | .sequence _, _ => trivial

theorem IsRanged.follow {p : Place} (h : p.IsRanged) (keys : List String) :
    (p.follow keys).IsRanged := by
  induction keys generalizing p with
  | nil => exact h
  | cons key rest ih =>
      refine ih (p := p.get key) ?_
      cases p with
      | absent => trivial
      | present tree => exact isRanged_child key h

end Place

theorem Manifest.isRanged_root {text : String} {m : Manifest} (h : ofText text = .ok m) :
    m.root.IsRanged := by
  by_cases hblank : isBlankDocument text = true
  · have hempty : ofText text = .ok empty := if_pos hblank
    rw [hempty] at h
    cases h
    trivial
  · have hread : ofText text = ofDocument text := if_neg hblank
    rw [hread] at h
    obtain ⟨tree, htree, hm⟩ := ofDocument_eq_ok_iff.1 h
    have hranged := Tree.isRanged_ofText htree
    cases tree with
    | null =>
        cases hm
        trivial
    | mapping entries =>
        cases hm
        exact hranged
    | bool | number | string | sequence | tagged => cases hm

/-! ### The rule -/

/-- The integers that are seen at a place. -/
theorem Place.asInteger_eq_some_iff {p : Place} {n : Int} :
    p.asInteger = some n ↔ p = .present (.number (.int n)) ∧ n < 0x8000000000000000 := by
  constructor
  · intro h
    unfold asInteger at h
    split at h
    · split at h
      · rename_i hlt
        cases h
        exact ⟨rfl, hlt⟩
      · cases h
    · cases h
  · rintro ⟨rfl, hlt⟩
    exact if_pos hlt

theorem Rule.holds_replicas_iff (root : Place) :
    Rule.replicas.holds root = true ↔
      ∃ n, root.path "spec.replicas" = .present (.number (.int n)) ∧
        2 ≤ n ∧ n < 0x8000000000000000 := by
  have hkeys : Place.keysOfPath "spec.replicas" = ["spec", "replicas"] := by decide
  rw [holds, Option.any_eq_true, Place.path, hkeys]
  simp only [Place.asInteger_eq_some_iff, decide_eq_true_eq, and_right_comm, and_assoc]

/-- **How many replicas are enough.**  The rule is reported as passed for the integers from two to
`2 ^ 63 - 1` and for nothing else, and an integer that was read may lie beyond that limit. -/
theorem replicas_pass_iff {text : String} {m : Manifest} (hread : Manifest.ofText text = .ok m) :
    ((checkManifest text).passed Rule.replicas.name = true ↔
      ∃ n, m.root.path "spec.replicas" = .present (.number (.int n)) ∧
        2 ≤ n ∧ n < 0x8000000000000000) ∧
    ∀ n, m.root.path "spec.replicas" = .present (.number (.int n)) →
      -0x8000000000000000 ≤ n ∧ n < 0x10000000000000000 := by
  constructor
  · have hverdict : checkManifest text = .ofPlace m.root := by
      rw [checkManifest, hread]
    rw [hverdict, (Verdict.reports_ofPlace m.root).passed_name]
    exact Rule.holds_replicas_iff m.root
  · intro n hnode
    have hranged : (m.root.path "spec.replicas").IsRanged :=
      (Manifest.isRanged_root hread).follow _
    rw [hnode] at hranged
    have hfits : fitsTree n = true := hranged
    simpa only [fitsTree, Bool.and_eq_true, decide_eq_true_eq] using hfits

/-- A manifest that says nothing but how many replicas there are. -/
def replicasManifest (n : Int) : Manifest :=
  ⟨.cons (.string "spec") (.mapping (.cons (.string "replicas") (.number (.int n)) .nil)) .nil⟩

/-- The largest integer that is enough. -/
theorem replicas_pass_at_limit :
    Manifest.ofText "spec:\n  replicas: 9223372036854775807\n" =
        .ok (replicasManifest 9223372036854775807) ∧
      (checkManifest "spec:\n  replicas: 9223372036854775807\n").passed Rule.replicas.name =
        true := by
  have hread : Manifest.ofText "spec:\n  replicas: 9223372036854775807\n" =
      .ok (replicasManifest 9223372036854775807) := by decide +kernel
  exact ⟨hread, (replicas_pass_iff hread).1.2
    ⟨9223372036854775807, by decide, by decide, by decide⟩⟩

/-- One replica more is read as an integer, and fails. -/
theorem replicas_fail_beyond_limit :
    Manifest.ofText "spec:\n  replicas: 9223372036854775808\n" =
        .ok (replicasManifest 9223372036854775808) ∧
      (replicasManifest 9223372036854775808).root.path "spec.replicas" =
        .present (.number (.int 9223372036854775808)) ∧
      (2 : Int) ≤ 9223372036854775808 ∧
      (checkManifest "spec:\n  replicas: 9223372036854775808\n").passed Rule.replicas.name =
        false := by
  decide +kernel

end EscapeRoom
