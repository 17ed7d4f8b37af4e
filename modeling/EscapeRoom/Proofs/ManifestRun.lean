import EscapeRoom.Proofs.ManifestLevel

/-!
# Loads and verdicts in any order

The manifest level holds three things that are overwritten by different rules: whether it is
finished, which is never undone; the latest verdict, which later progress leaves alone; and the
manifest of the store, which neither a verdict nor progress without a text replaces.  So each of
them can be read off the calls that were made.

* `ManifestCall`, `ManifestLevel.take`, `ManifestLevel.run`, `ManifestLevel.transitions` — calls,
  one step, and runs.
* `ManifestCall.finishes`, `ManifestCall.verdict?`, `ManifestCall.savedText?` — what a call brings.
* `ManifestLevel.IsTracked.take`, `ManifestLevel.verdict_take`, `ManifestLevel.savedManifest_take` —
  what a call does.
* `ManifestLevel.state_is_read_off_calls` — what holds of every run.
-/

namespace EscapeRoom

/-- Something that the manifest level takes. -/
inductive ManifestCall
  /-- Progress of a store. -/
  | load (progress : Progress)
  /-- A verdict on a manifest. -/
  | judge (verdict : Verdict)
  deriving DecidableEq

namespace ManifestCall

/-- Whether a call says that the task of the level is done. -/
def finishes : ManifestCall → Bool
  | load progress => progress.tasks.isDone Task.validManifest
  | judge verdict => verdict.ok

/-- The verdict of a call. -/
def verdict? : ManifestCall → Option Verdict
  | load _ => none
  | judge verdict => some verdict

/-- The manifest that a call brings from the store; a blank one is none. -/
def savedText? : ManifestCall → Option String
  | load progress => progress.manifest.filter fun text => !Text.isBlankText text
  | judge _ => none

theorem exists_finishes_iff {calls : List ManifestCall} :
    calls.any finishes = true ↔
      (∃ verdict, judge verdict ∈ calls ∧ verdict.ok = true) ∨
        ∃ progress, load progress ∈ calls ∧
          progress.tasks.isDone Task.validManifest = true := by
  rw [List.any_eq_true]
  constructor
  · rintro ⟨call, hmem, hfinishes⟩
    cases call with
    | load progress => exact .inr ⟨progress, hmem, hfinishes⟩
    | judge verdict => exact .inl ⟨verdict, hmem, hfinishes⟩
  · rintro (⟨verdict, hmem, hok⟩ | ⟨progress, hmem, hdone⟩)
    · exact ⟨.judge verdict, hmem, hok⟩
    · exact ⟨.load progress, hmem, hdone⟩

end ManifestCall

namespace ManifestLevel

/-- One step of the level. -/
def take (l : ManifestLevel) : ManifestCall → Transition × ManifestLevel
  | .load progress => l.load progress
  | .judge verdict => l.applyVerdict verdict

/-- The level after some calls. -/
def run (l : ManifestLevel) (calls : List ManifestCall) : ManifestLevel := lastState take l calls

/-- What the calls of a run meant for the level. -/
def transitions (l : ManifestLevel) (calls : List ManifestCall) : List Transition :=
  answers take l calls

/-! ### One call -/

theorem IsTracked.take {l : ManifestLevel} (h : l.IsTracked) (call : ManifestCall) :
    l.Steps call.finishes (l.take call) := by
  cases call with
  | load progress => exact h.load progress
  | judge verdict => exact h.applyVerdict verdict

section
variable (l : ManifestLevel) (call : ManifestCall)

/-- Progress leaves the latest verdict alone. -/
theorem verdict_take : (l.take call).2.verdict = call.verdict?.or l.verdict := by
  cases call <;> rfl

/-- A verdict leaves the saved manifest alone, and so does progress without one. -/
theorem savedManifest_take :
    (l.take call).2.savedManifest = call.savedText?.or l.savedManifest := by
  cases call <;> rfl

end

/-- A call answers that it completed the level when it found it unfinished and left it finished. -/
theorem tellsOnset : TellsOnset take IsTracked isComplete (· == .completed) where
  keeps call h := (h.take call).isTracked
  stays call h hcomplete := by rw [(h.take call).isComplete, hcomplete, Bool.true_or]
  tells {l} call h := by
    rw [(h.take call).transition, (h.take call).isComplete]
    cases l.isComplete <;> cases call.finishes <;> rfl

/-! ### Runs -/

theorem IsTracked.isComplete_run {l : ManifestLevel} (h : l.IsTracked)
    (calls : List ManifestCall) :
    (l.run calls).isComplete = (l.isComplete || calls.any ManifestCall.finishes) := by
  induction calls generalizing l with
  | nil => exact (Bool.or_false _).symm
  | cons call rest ih =>
      show ((l.take call).2.run rest).isComplete = _
      rw [ih (h.take call).isTracked, (h.take call).isComplete, List.any_cons, Bool.or_assoc]

section
variable (l : ManifestLevel) (calls : List ManifestCall)

theorem verdict_run :
    (l.run calls).verdict = (calls.filterMap ManifestCall.verdict?).getLast?.or l.verdict :=
  keeps_last_write (P := fun _ => True) ManifestLevel.verdict ManifestCall.verdict?
    (fun _ _ _ => trivial) (fun l call _ => l.verdict_take call) calls trivial

theorem savedManifest_run :
    (l.run calls).savedManifest =
      (calls.filterMap ManifestCall.savedText?).getLast?.or l.savedManifest :=
  keeps_last_write (P := fun _ => True) ManifestLevel.savedManifest ManifestCall.savedText?
    (fun _ _ _ => trivial) (fun l call _ => l.savedManifest_take call) calls trivial

end

/-- **The state of the manifest level is read off the calls.**  Progress is loaded and verdicts are
applied in any order.  The level is finished exactly when some verdict accepted or some progress had
the task done, and then one call completed it, otherwise none.  The checklist shows the latest
verdict, whatever was loaded since, and before the first one whether the level is finished.  The
saved manifest is the latest text that progress brought and that is not blank; verdicts, and
progress without such a text, leave it as it is. -/
theorem state_is_read_off_calls (calls : List ManifestCall) :
    let l := new.run calls
    (l.isComplete = true ↔
      (∃ verdict, .judge verdict ∈ calls ∧ verdict.ok = true) ∨
        ∃ progress, .load progress ∈ calls ∧
          progress.tasks.isDone Task.validManifest = true) ∧
    (new.transitions calls).count .completed = (if l.isComplete then 1 else 0) ∧
    l.checklist = Rule.all.map (fun rule =>
      ⟨rule, match (calls.filterMap ManifestCall.verdict?).getLast? with
        | some verdict => verdict.passed rule.name
        | none => l.isComplete⟩) ∧
    l.savedManifest = (calls.filterMap ManifestCall.savedText?).getLast? ∧
    (∀ verdict, (l.applyVerdict verdict).2.savedManifest = l.savedManifest) ∧
    ∀ progress, progress.manifest.all Text.isBlankText = true →
      (l.load progress).2.savedManifest = l.savedManifest := by
  intro l
  have hcomplete : l.isComplete = calls.any ManifestCall.finishes :=
    isTracked_new.isComplete_run calls
  have hverdict : l.verdict = (calls.filterMap ManifestCall.verdict?).getLast? :=
    (new.verdict_run calls).trans Option.or_none
  refine ⟨?_, ?_, ?_, ?_, ?_, ?_⟩
  · rw [hcomplete]
    exact ManifestCall.exists_finishes_iff
  · exact tellsOnset.countP_answers isTracked_new calls
  · rw [checklist, EscapeRoom.checklist, hverdict]
    cases (calls.filterMap ManifestCall.verdict?).getLast? <;> rfl
  · exact (new.savedManifest_run calls).trans Option.or_none
  · intro verdict
    exact l.savedManifest_take (.judge verdict)
  · intro progress hblank
    have hnone : (ManifestCall.load progress).savedText? = none := by
      rw [ManifestCall.savedText?]
      cases hmanifest : progress.manifest with
      | none => rfl
      | some text =>
          rw [hmanifest] at hblank
          have htext : Text.isBlankText text = true := hblank
          simp [Option.filter, htext]
    have hload := l.savedManifest_take (.load progress)
    rw [hnone] at hload
    exact hload

/-- A level that progress finishes, a verdict that refuses, and then a blank manifest. -/
theorem blank_manifest_replaces_nothing :
    let finished : ManifestCall :=
      .load ⟨.ofList [(Task.validManifest, true)], true, some "kind: Deployment"⟩
    let refused : ManifestCall := .judge (.unparseable "")
    let l := new.run [finished, refused]
    let blank : Progress := ⟨.empty, false, some " \n"⟩
    blank.manifest.all Text.isBlankText = true ∧
      (l.load blank).2.savedManifest = l.savedManifest ∧
      l.savedManifest = some "kind: Deployment" ∧
      l.isComplete = true ∧ l.checklist.all (fun item => !item.satisfied) = true := by
  intro finished refused l blank
  have hblank : blank.manifest.all Text.isBlankText = true := by decide
  obtain ⟨-, -, -, -, -, hkept⟩ := state_is_read_off_calls [finished, refused]
  exact ⟨hblank, hkept blank hblank, by decide, by decide, by decide⟩

end ManifestLevel

end EscapeRoom
