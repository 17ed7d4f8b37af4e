import EscapeRoom.Manifest.Basic

/-!
# The rubric

Seven rules decide about a manifest.  All of them are judged on every submission, so one verdict
names every remaining gap.

* `Rule`, `Rule.all` — the rules in the order in which they are reported.
* `Rule.holds` — what a rule asks of a manifest.
* `checkManifest` — the verdict on a text.
* `checklist` — the rules as a player sees them.
-/

namespace EscapeRoom

/-- A rule of the rubric. -/
inductive Rule
  | apiVersion
  | kindDeployment
  | metadataName
  | replicas
  | image
  | probes
  | resources
  deriving DecidableEq, Repr

namespace Rule

/-- The rules in the order in which they are reported. -/
def all : List Rule :=
  [apiVersion, kindDeployment, metadataName, replicas, image, probes, resources]

/-- The name under which a rule is reported. -/
def name : Rule → String
  | apiVersion => "apiVersion"
  | kindDeployment => "kindDeployment"
  | metadataName => "metadataName"
  | replicas => "replicas"
  | image => "image"
  | probes => "probes"
  | resources => "resources"

/-- What a checklist says for a rule. -/
def label : Rule → String
  | apiVersion => "apiVersion = apps/v1"
  | kindDeployment => "kind = Deployment"
  | metadataName => "metadata.name exists"
  | replicas => "replicas >= 2"
  | image => "containers[0].image exists"
  | probes => "readinessProbe + livenessProbe present"
  | resources => "resources.requests + limits present"

/-- The error for a rule that fails. -/
def error : Rule → String
  | apiVersion => "apiVersion must be apps/v1"
  | kindDeployment => "kind must be Deployment"
  | metadataName => "metadata.name is required"
  | replicas => "spec.replicas must be >= 2"
  | image => "containers[0].image is required"
  | probes => "readinessProbe and livenessProbe are required"
  | resources => "resources.requests/limits (cpu,memory) are required"

/-- The first container of a deployment. -/
def firstContainer (root : Place) : Place :=
  (root.follow ["spec", "template", "spec", "containers"]).item 0

/-- Whether a section of the resources names both processor and memory. -/
def hasSection (resources : Place) (part : String) : Bool :=
  ["cpu", "memory"].all fun key => ((resources.get part).get key).isFilled

/-- Whether a rule holds of a manifest, seen from its top. -/
def holds (root : Place) : Rule → Bool
  | apiVersion => (root.get "apiVersion").asString == some "apps/v1"
  | kindDeployment => (root.get "kind").asString == some "Deployment"
  | metadataName => (root.follow ["metadata", "name"]).isFilled
  | replicas => (root.follow ["spec", "replicas"]).asInteger.any fun n => 2 ≤ n
  | image => ((firstContainer root).get "image").isFilled
  | probes =>
      ((firstContainer root).get "readinessProbe").isFilled &&
        ((firstContainer root).get "livenessProbe").isFilled
  | resources =>
      ["requests", "limits"].all (hasSection ((firstContainer root).get "resources"))

/-- No two rules have the same name. -/
theorem name_injective {r s : Rule} (h : r.name = s.name) : r = s := by
  cases r <;> cases s <;> first | rfl | simp [name] at h

/-- Every rule is reported. -/
theorem mem_all (r : Rule) : r ∈ all := by cases r <;> decide

end Rule

/-- The outcome of one rule, under the rule's name. -/
structure RuleCheck where
  name : String
  passed : Bool
  deriving DecidableEq, Repr

/-- The outcome of all rules. -/
structure Verdict where
  ok : Bool
  checks : List RuleCheck
  errors : List String
  deriving DecidableEq, Repr

namespace Verdict

/-- Whether a verdict reports a rule of that name as passed. -/
def passed (v : Verdict) (rule : String) : Bool :=
  v.checks.any fun check => check.name == rule && check.passed

/-- The verdict on a manifest, seen from its top. -/
def ofPlace (root : Place) : Verdict where
  ok := Rule.all.all (Rule.holds root)
  checks := Rule.all.map fun rule => ⟨rule.name, rule.holds root⟩
  errors := (Rule.all.filter fun rule => !rule.holds root).map Rule.error

/-- The verdict on a text that is no manifest. -/
def unparseable (detail : String) : Verdict where
  ok := false
  checks := Rule.all.map fun rule => ⟨rule.name, false⟩
  errors := ["document is not parseable: " ++ detail]

end Verdict

def checkManifest (text : String) : Verdict :=
  match Manifest.ofText text with
  | .ok m => .ofPlace m.root
  | .error e => .unparseable e.message

/-- One line of a checklist. -/
structure ChecklistItem where
  rule : Rule
  satisfied : Bool
  deriving DecidableEq, Repr

/-- The checklist that a player sees: the latest verdict, or without one whether the level is
finished. -/
def checklist (verdict : Option Verdict) (complete : Bool) : List ChecklistItem :=
  Rule.all.map fun rule => ⟨rule, verdict.elim complete fun v => v.passed rule.name⟩

end EscapeRoom
