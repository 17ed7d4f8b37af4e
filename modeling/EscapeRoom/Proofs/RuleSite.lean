import EscapeRoom.Manifest.Rubric

/-!
# What a rule looks at

Every rule looks at one place of a manifest and at what is below it.  It finds the place by keys,
and asks of it which string or integer stands there or whether certain keys are filled.  So two
manifests get the same outcome from a rule when its places in them are related by anything that
lookups and emptiness cannot tell apart.

* `Rule.site`, `Rule.accepts`, `Rule.holds_eq` — the place of a rule, and what is asked of it.
* `Rule.keys` — the keys that rules look up.
* `Rule.Respects` — relations between places that rules do not see through.
* `Rule.Respects.accepts_congr` — related places get the same outcome.
-/

namespace EscapeRoom

open Yaml

namespace Rule

/-- The place that a rule looks at. -/
def site (root : Place) : Rule → Place
  | apiVersion => root.follow ["apiVersion"]
  | kindDeployment => root.follow ["kind"]
  | metadataName => root.follow ["metadata", "name"]
  | replicas => root.follow ["spec", "replicas"]
  | image => firstContainer root
  | probes => firstContainer root
  | resources => firstContainer root

/-- What a rule asks of its place. -/
def accepts (site : Place) : Rule → Bool
  | apiVersion => site.asString == some "apps/v1"
  | kindDeployment => site.asString == some "Deployment"
  | metadataName => site.isFilled
  | replicas => site.asInteger.any fun n => 2 ≤ n
  | image => (site.get "image").isFilled
  | probes => (site.get "readinessProbe").isFilled && (site.get "livenessProbe").isFilled
  | resources => ["requests", "limits"].all (hasSection (site.get "resources"))

theorem holds_eq (root : Place) (rule : Rule) :
    rule.holds root = rule.accepts (rule.site root) := by
  cases rule <;> rfl

/-- Whether a rule asks for a string or an integer at its place. -/
def readsScalar : Rule → Bool
  | apiVersion | kindDeployment | replicas => true
  | metadataName | image | probes | resources => false

/-- Whether the place of a rule is the first container. -/
def readsContainer : Rule → Bool
  | image | probes | resources => true
  | apiVersion | kindDeployment | metadataName | replicas => false

/-- Nothing is accepted where there is nothing. -/
theorem accepts_absent (rule : Rule) : rule.accepts .absent = false := by
  cases rule <;> rfl

/-- The keys that rules look up. -/
def keys : List String :=
  ["apiVersion", "kind", "metadata", "name", "spec", "replicas", "template", "containers", "image",
    "readinessProbe", "livenessProbe", "resources", "requests", "limits", "cpu", "memory"]

/-- A relation between places that lookups under the keys of rules keep, and that relates only
places that are filled alike. -/
structure Respects (R : Place → Place → Prop) : Prop where
  get : ∀ {p q : Place}, R p q → ∀ key ∈ keys, R (p.get key) (q.get key)
  isFilled : ∀ {p q : Place}, R p q → p.isFilled = q.isFilled

namespace Respects

variable {R : Place → Place → Prop} (hR : Respects R) {p q : Place}
include hR

theorem follow (h : R p q) (path : List String) (hpath : ∀ key ∈ path, key ∈ keys) :
    R (p.follow path) (q.follow path) := by
  induction path generalizing p q with
  | nil => exact h
  | cons key path ih =>
      rw [List.forall_mem_cons] at hpath
      exact ih (hR.get h key hpath.1) hpath.2

theorem hasSection_congr (h : R p q) (part : String) (hpart : part ∈ keys) :
    hasSection p part = hasSection q part := by
  have hcpu := hR.isFilled (hR.get (hR.get h part hpart) "cpu" (by decide))
  have hmemory := hR.isFilled (hR.get (hR.get h part hpart) "memory" (by decide))
  simp only [hasSection, List.all_cons, List.all_nil, hcpu, hmemory]

/-- Related places are accepted alike, if a rule that reads a scalar reads the same one there. -/
theorem accepts_congr (h : R p q) {rule : Rule}
    (hscalar : rule.readsScalar = true → p.asString = q.asString ∧ p.asInteger = q.asInteger) :
    rule.accepts p = rule.accepts q := by
  cases rule with
  | apiVersion => rw [accepts, (hscalar rfl).1]; rfl
  | kindDeployment => rw [accepts, (hscalar rfl).1]; rfl
  | metadataName => exact hR.isFilled h
  | replicas => rw [accepts, (hscalar rfl).2]; rfl
  | image => exact hR.isFilled (hR.get h "image" (by decide))
  | probes =>
      have hreadiness := hR.isFilled (hR.get h "readinessProbe" (by decide))
      have hliveness := hR.isFilled (hR.get h "livenessProbe" (by decide))
      rw [accepts, hreadiness, hliveness]
      rfl
  | resources =>
      have hresources := hR.get h "resources" (by decide)
      have hrequests := hR.hasSection_congr hresources "requests" (by decide)
      have hlimits := hR.hasSection_congr hresources "limits" (by decide)
      simp only [accepts, List.all_cons, List.all_nil, hrequests, hlimits]

end Respects

end Rule

end EscapeRoom
