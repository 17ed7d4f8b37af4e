import EscapeRoom.Room.ManifestLevel
import EscapeRoom.Store.Basic
import EscapeRoom.Text.Lines

/-!
# Checking a manifest

A check takes the progress from the store, asks it for a verdict, and falls back on its own rules
when the store does not answer.  A passing verdict of its own is reported to the store.

* `runCheck` — one check.
* `fetchSavedManifest` — the manifest that the store last accepted.
* `CheckReport.render` — what the player reads.
-/

namespace EscapeRoom

/-- Who gave a verdict. -/
inductive VerdictSource
  /-- The store. -/
  | remote
  /-- The rules at hand. -/
  | own
  deriving DecidableEq, Repr

/-- The outcome of a check. -/
structure CheckReport where
  verdict : Verdict
  source : VerdictSource
  /-- The checklist before the verdict: what a returning player sees first. -/
  initialChecklist : List ChecklistItem
  checklist : List ChecklistItem
  levelComplete : Bool
  celebrate : Bool
  deriving DecidableEq

/-- The report on a verdict given to a level. -/
def CheckReport.of (level : ManifestLevel) (verdict : Verdict) (source : VerdictSource) :
    CheckReport :=
  let (transition, after) := level.applyVerdict verdict
  { verdict := verdict
    source := source
    initialChecklist := level.checklist
    checklist := after.checklist
    levelComplete := after.isComplete
    celebrate := transition == .completed }

/-- The level after the store was asked for progress. -/
def ManifestLevel.afterFetch : Except StoreError Progress → ManifestLevel
  | .ok progress => (new.load progress).2
  | .error _ => new

/-- The verdict on a manifest, given the store's answer. -/
def decideVerdict (manifest : String) : Except StoreError Verdict → Verdict × VerdictSource
  | .ok verdict => (verdict, .remote)
  | .error _ => (checkManifest manifest, .own)

def runCheckWith {m : Type → Type} [Monad m] (store : ProgressStore m) (player manifest : String) :
    m CheckReport := do
  let level := ManifestLevel.afterFetch (← store.fetch player .manifest)
  let (verdict, source) := decideVerdict manifest (← store.validate player manifest)
  if source = .own && verdict.ok then
    let _ ← store.update player .manifest (.done Task.validManifest)
  return .of level verdict source

/-- Checks a manifest, with a store or without one. -/
def runCheck {m : Type → Type} [Monad m] (store : Option (ProgressStore m))
    (player manifest : String) : m CheckReport :=
  match store with
  | some store => runCheckWith store player manifest
  | none => return .of .new (checkManifest manifest) .own

/-- The manifest that a store last accepted from a player. -/
def fetchSavedManifest {m : Type → Type} [Monad m] (store : ProgressStore m) (player : String) :
    m (Except StoreError (Option String)) := do
  match ← store.fetch player .manifest with
  | .ok progress => return .ok (ManifestLevel.new.load progress).2.savedManifest
  | .error e => return .error e

/-- A checklist under its heading. -/
def checklistLines (heading : String) (items : List ChecklistItem) : List String :=
  heading :: items.map fun item =>
    "  [" ++ (if item.satisfied then "x" else " ") ++ "] " ++ item.rule.label

namespace CheckReport

def lines (r : CheckReport) : List String :=
  let title := Level.manifest.title
  (if r.initialChecklist.all (·.satisfied) then
      (title ++ " was already completed earlier.") ::
        checklistLines "Saved checklist:" r.initialChecklist
    else []) ++
  (if r.source = .own then ["(checked locally)"] else []) ++
  checklistLines "Checklist:" r.checklist ++
  (if r.verdict.errors.isEmpty then []
    else "Errors:" :: r.verdict.errors.map fun e => "  - " ++ e) ++
  (if r.verdict.ok then ["Manifest accepted."] else []) ++
  (if r.celebrate then ["*** " ++ title ++ " complete! You escaped. ***"] else [])

/-- What the player reads. -/
def render (r : CheckReport) : String := Text.unlines r.lines

end CheckReport

end EscapeRoom
