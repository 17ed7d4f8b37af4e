import EscapeRoom.Manifest.Rubric
import EscapeRoom.Task.State
import EscapeRoom.Task.Tracker

/-!
# The manifest level

The level collects progress from a store and verdicts on manifests.  It is finished by a verdict
that accepts or by progress that says so; the checklist shows the latest verdict.

* `ManifestLevel.load` — taking progress from a store.
* `ManifestLevel.applyVerdict` — taking a verdict.
* `ManifestLevel.checklist` — what the player sees.
-/

namespace EscapeRoom

/-- The state of the manifest level. -/
structure ManifestLevel where
  tracker : Tracker
  verdict : Option Verdict
  /-- The manifest that the store last accepted. -/
  savedManifest : Option String
  deriving DecidableEq

namespace ManifestLevel

/-- A level in which nothing has happened. -/
def new : ManifestLevel := ⟨.new .manifest, none, none⟩

/-- Whether the level is finished. -/
def isComplete (l : ManifestLevel) : Bool := l.tracker.isComplete

/-- Takes progress from a store; a blank manifest there is none. -/
def load (l : ManifestLevel) (progress : Progress) : Transition × ManifestLevel :=
  let (transition, tracker) := l.tracker.mergeRemote progress.tasks
  let saved := progress.manifest.filter fun text => !Text.isBlankText text
  (transition, { l with tracker := tracker, savedManifest := saved.or l.savedManifest })

/-- Takes a verdict. -/
def applyVerdict (l : ManifestLevel) (verdict : Verdict) : Transition × ManifestLevel :=
  let (transition, tracker) := l.tracker.record ⟨Task.validManifest, verdict.ok⟩
  (transition, { l with tracker := tracker, verdict := some verdict })

/-- What the player sees. -/
def checklist (l : ManifestLevel) : List ChecklistItem :=
  EscapeRoom.checklist l.verdict l.isComplete

end ManifestLevel

end EscapeRoom
