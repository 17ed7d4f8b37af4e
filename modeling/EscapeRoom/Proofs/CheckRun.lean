import EscapeRoom.Proofs.ManifestLevel
import EscapeRoom.Proofs.StoreRun
import EscapeRoom.Proofs.VerdictShape

/-!
# Checking again and again

A player checks manifests one after the other against a store in memory, and each time other
requests may fail.  A pass is recorded when the store grades the manifest or, failing that, when the
update afterwards gets through; only the first way keeps the manifest.  The player sees a
celebration whenever a manifest passes and the level was not known to be finished.

* `CheckCall`, `MemoryStore.check`, `MemoryStore.afterChecks` — one check, and runs of them.
* `MemoryStore.check_eq`, `MemoryStore.check_report` — what one check leaves and reports.
* `MemoryStore.isFinished_afterChecks`, `MemoryStore.manifest?_afterChecks` — what runs leave.
* `MemoryStore.checks_celebrate_and_record` — checks after any history.
* `MemoryStore.celebrated_once_of_passes` — a manifest that passes, checked twice.
-/

namespace EscapeRoom

/-- A check: the manifest, and the kinds of request that fail while it lasts. -/
structure CheckCall where
  manifest : String
  failing : List StoreRequest
  deriving DecidableEq, Repr

namespace CheckCall

variable (call : CheckCall) (down : Bool)

def passes : Bool := (checkManifest call.manifest).ok

/-- Whether a request fails; all of them do when the store is down. -/
def fails (request : StoreRequest) : Bool := call.failing.contains request || down

/-- Whether the check makes the store note that the level is finished. -/
def records : Bool := call.passes && !(call.fails down .validate && call.fails down .update)

/-- The manifest that the check makes the store keep. -/
def keeps? : Option String :=
  if call.passes && !call.fails down .validate then some call.manifest else none

end CheckCall

namespace MemoryStore

/-- One check. -/
def check (s : MemoryStore) (player : String) (call : CheckCall) : CheckReport × MemoryStore :=
  let (report, after) :=
    runCheck (some (Unreliable.store store)) player call.manifest ⟨s, call.failing⟩
  (report, after.inner)

/-- The store after some checks. -/
def afterChecks (s : MemoryStore) (player : String) (calls : List CheckCall) : MemoryStore :=
  calls.foldl (fun s call => (s.check player call).2) s

/-- Whether the store knows that a player has finished the manifest level. -/
def isFinished (s : MemoryStore) (player : String) : Bool :=
  (s.tasks player .manifest).isDone Task.validManifest

/-- The manifest that the store keeps for a player. -/
def manifest? (s : MemoryStore) (player : String) : Option String :=
  (s.recordOf player .manifest).manifest

/-! ### Changes -/

section
variable (s : MemoryStore) (player : String)

theorem isFinished_accept (manifest : String) :
    (s.accept player manifest).isFinished player = true := by
  rw [isFinished, tasks_accept, if_pos ⟨rfl, rfl⟩, TaskState.isDone_sup]
  exact Bool.or_eq_true_iff.2 (.inr (by decide))

theorem manifest?_accept (manifest : String) :
    (s.accept player manifest).manifest? player = some manifest := by
  rw [manifest?, accept, recordOf_modifyRecord, if_pos ⟨rfl, rfl⟩]

theorem isFinished_update :
    (s.update player .manifest (.done Task.validManifest)).isFinished player = true := by
  rw [isFinished, tasks_update, if_pos ⟨rfl, rfl⟩, TaskState.isDone_sup]
  exact Bool.or_eq_true_iff.2 (.inr (by decide))

theorem manifest?_update (signal : TaskSignal) :
    (s.update player .manifest signal).manifest? player = s.manifest? player := by
  rw [manifest?, update, recordOf_modifyRecord, if_pos ⟨rfl, rfl⟩]
  rfl

end

/-! ### One check -/

section
variable (s : MemoryStore) (player : String) (call : CheckCall)

theorem fetch_check :
    ∃ fetched, (Unreliable.store store).fetch player .manifest ⟨s, call.failing⟩ =
        (fetched, ⟨s, call.failing⟩) ∧
      ManifestLevel.isFinishedBy fetched =
        (!call.fails s.failing .fetch && s.isFinished player) := by
  show ∃ fetched, Unreliable.attempt .fetch (answer fun s => (s.progress player .manifest, s)) _ =
    _ ∧ _
  cases hfails : call.fails s.failing .fetch with
  | true =>
      obtain ⟨e, he⟩ := Unreliable.attempt_refused (u := ⟨s, call.failing⟩) hfails
        fun s => (s.progress player .manifest, s)
      exact ⟨.error e, he, rfl⟩
  | false =>
      exact ⟨.ok (s.progress player .manifest),
        Unreliable.attempt_answered (u := ⟨s, call.failing⟩) hfails _, (Bool.true_and _).symm⟩

/-- Without an answer the check uses the rules of its own. -/
theorem validate_refused (h : call.fails s.failing .validate = true) :
    ∃ e, (Unreliable.store store).validate player call.manifest ⟨s, call.failing⟩ =
      (.error e, ⟨s, call.failing⟩) :=
  Unreliable.attempt_refused (u := ⟨s, call.failing⟩) h fun s =>
    (checkManifest call.manifest,
      if (checkManifest call.manifest).ok then s.accept player call.manifest else s)

theorem validate_answered (h : call.fails s.failing .validate = false) :
    (Unreliable.store store).validate player call.manifest ⟨s, call.failing⟩ =
      (.ok (checkManifest call.manifest),
        ⟨if call.passes then s.accept player call.manifest else s, call.failing⟩) :=
  Unreliable.attempt_answered (u := ⟨s, call.failing⟩) h fun s =>
    (checkManifest call.manifest,
      if (checkManifest call.manifest).ok then s.accept player call.manifest else s)

/-- What the update after a pass leaves, if it gets through. -/
theorem update_check :
    ((Unreliable.store store).update player .manifest (.done Task.validManifest)
        ⟨s, call.failing⟩).2.inner =
      if call.fails s.failing .update then s
      else s.update player .manifest (.done Task.validManifest) := by
  show (Unreliable.attempt .update (answer fun s =>
    ((s.update player .manifest (.done Task.validManifest)).progress player .manifest,
      s.update player .manifest (.done Task.validManifest))) _).2.inner = _
  cases hfails : call.fails s.failing .update with
  | true =>
      obtain ⟨e, he⟩ := Unreliable.attempt_refused (u := ⟨s, call.failing⟩) hfails fun s =>
        ((s.update player .manifest (.done Task.validManifest)).progress player .manifest,
          s.update player .manifest (.done Task.validManifest))
      rw [he]
      rfl
  | false =>
      rw [Unreliable.attempt_answered (u := ⟨s, call.failing⟩) hfails]
      rfl

/-- What a check reports and leaves: a pass goes into the store with the verdict, or else with the
update. -/
theorem check_eq :
    ∃ fetched source,
      ManifestLevel.isFinishedBy fetched = (!call.fails s.failing .fetch && s.isFinished player) ∧
      s.check player call = (.of (.afterFetch fetched) (checkManifest call.manifest) source,
        if !call.passes then s
        else if !call.fails s.failing .validate then s.accept player call.manifest
        else if !call.fails s.failing .update then
          s.update player .manifest (.done Task.validManifest)
        else s) := by
  obtain ⟨fetched, hfetch, hfinished⟩ := s.fetch_check player call
  have hcheck : s.check player call =
      ((runCheckWith (Unreliable.store store) player call.manifest ⟨s, call.failing⟩).1,
        (runCheckWith (Unreliable.store store) player call.manifest ⟨s, call.failing⟩).2.inner) :=
    rfl
  rw [hcheck, runCheckWith_eq, hfetch]
  dsimp only
  cases hvalidate : call.fails s.failing .validate with
  | false =>
      refine ⟨fetched, .remote, hfinished, ?_⟩
      rw [s.validate_answered player call hvalidate]
      cases call.passes <;> rfl
  | true =>
      obtain ⟨e, he⟩ := s.validate_refused player call hvalidate
      refine ⟨fetched, .own, hfinished, ?_⟩
      have hown : decideVerdict call.manifest (.error e) =
          (checkManifest call.manifest, .own) := rfl
      rw [he, hown]
      dsimp only
      cases hpasses : call.passes with
      | false =>
          have hok : (checkManifest call.manifest).ok = false := hpasses
          rw [if_neg (by simp [hok])]
          rfl
      | true =>
          have hok : (checkManifest call.manifest).ok = true := hpasses
          rw [if_pos (by simp [hok]), s.update_check player call]
          cases call.fails s.failing .update <;> rfl

theorem failing_check : (s.check player call).2.failing = s.failing := by
  obtain ⟨fetched, source, -, hcheck⟩ := s.check_eq player call
  rw [hcheck]
  dsimp only
  split_ifs <;> rfl

/-- Once it is known that the level is finished, it stays known. -/
theorem isFinished_check :
    (s.check player call).2.isFinished player =
      (s.isFinished player || call.records s.failing) := by
  obtain ⟨fetched, source, -, hcheck⟩ := s.check_eq player call
  rw [hcheck, CheckCall.records]
  cases call.passes with
  | false => exact (Bool.or_false _).symm
  | true =>
      cases call.fails s.failing .validate with
      | false => exact (s.isFinished_accept player call.manifest).trans (Bool.or_true _).symm
      | true =>
          cases call.fails s.failing .update with
          | false => exact (s.isFinished_update player).trans (Bool.or_true _).symm
          | true => exact (Bool.or_false _).symm

theorem manifest?_check :
    (s.check player call).2.manifest? player =
      (call.keeps? s.failing).or (s.manifest? player) := by
  obtain ⟨fetched, source, -, hcheck⟩ := s.check_eq player call
  rw [hcheck, CheckCall.keeps?]
  cases call.passes with
  | false => rfl
  | true =>
      cases call.fails s.failing .validate with
      | false => exact s.manifest?_accept player call.manifest
      | true =>
          cases call.fails s.failing .update with
          | false => exact s.manifest?_update player _
          | true => rfl

/-- What the player is shown. -/
theorem check_report :
    (s.check player call).1.verdict = checkManifest call.manifest ∧
      (s.check player call).1.celebrate =
        (!(!call.fails s.failing .fetch && s.isFinished player) && call.passes) ∧
      (s.check player call).1.initialChecklist.all (·.satisfied) =
        (!call.fails s.failing .fetch && s.isFinished player) := by
  obtain ⟨fetched, source, hfinished, hcheck⟩ := s.check_eq player call
  have hcomplete := ManifestLevel.isComplete_afterFetch fetched
  rw [hfinished] at hcomplete
  rw [hcheck]
  refine ⟨rfl, ?_, ?_⟩
  · have hcelebrate := CheckReport.celebrate_of _ (checkManifest call.manifest) source
      (ManifestLevel.isTracked_afterFetch fetched)
    rwa [hcomplete] at hcelebrate
  · have hinitial := CheckReport.initialChecklist_all (checkManifest call.manifest) source fetched
    rwa [hfinished] at hinitial

end

/-! ### Runs of checks -/

section
variable (player : String) (calls : List CheckCall) (s : MemoryStore)

theorem failing_afterChecks : (s.afterChecks player calls).failing = s.failing := by
  induction calls generalizing s with
  | nil => rfl
  | cons call rest ih => exact (ih (s.check player call).2).trans (s.failing_check player call)

/-- The level is finished after a run if it was before or some check of the run recorded it. -/
theorem isFinished_afterChecks :
    (s.afterChecks player calls).isFinished player =
      (s.isFinished player || calls.any (·.records s.failing)) := by
  induction calls generalizing s with
  | nil => exact (Bool.or_false _).symm
  | cons call rest ih =>
      refine (ih (s.check player call).2).trans ?_
      rw [isFinished_check, failing_check, List.any_cons, Bool.or_assoc]

/-- A run leaves the manifest of the last check that made the store keep one. -/
theorem manifest?_afterChecks :
    (s.afterChecks player calls).manifest? player =
      (calls.filterMap (·.keeps? s.failing)).getLast?.or (s.manifest? player) := by
  refine keeps_last_write (fun t : MemoryStore => t.manifest? player) (CheckCall.keeps? · s.failing)
    (P := fun t => t.failing = s.failing) (fun t call ht => (t.failing_check player call).trans ht)
    (fun t call ht => ?_) calls rfl
  rw [← ht]
  exact t.manifest?_check player call

end

/-- **Passes are celebrated and recorded over any number of checks.**  The player has checked
manifests before, and requests of any kinds failed then or fail now.  A check celebrates exactly
when its verdict is good and the level was not known to be finished, be it that the question for
progress failed.  The level is recorded as finished when it was before, or when the verdict is good
and the store graded the manifest or took the update.  Only a good verdict of the store replaces the
manifest.  Nobody who sees a finished checklist first is congratulated again.  Before the check the
store holds what the history has left there. -/
theorem checks_celebrate_and_record (player : String) (start : MemoryStore)
    (history : List CheckCall) (call : CheckCall) :
    let before := start.afterChecks player history
    let report := (before.check player call).1
    let after := (before.check player call).2
    report.verdict = checkManifest call.manifest ∧
      (report.celebrate = true ↔ report.verdict.ok = true ∧
        (call.fails start.failing .fetch = true ∨ before.isFinished player = false)) ∧
      (after.isFinished player = true ↔ before.isFinished player = true ∨
        report.verdict.ok = true ∧ (call.fails start.failing .validate = false ∨
          call.fails start.failing .update = false)) ∧
      after.manifest? player =
        (if report.verdict.ok = true ∧ call.fails start.failing .validate = false then
          some call.manifest else before.manifest? player) ∧
      ¬ (report.celebrate = true ∧ report.initialChecklist.all (·.satisfied) = true) ∧
      (before.isFinished player = true ↔ start.isFinished player = true ∨
        ∃ earlier ∈ history, earlier.records start.failing = true) ∧
      before.manifest? player =
        (history.filterMap (·.keeps? start.failing)).getLast?.or (start.manifest? player) := by
  intro before report after
  have hdown : before.failing = start.failing := start.failing_afterChecks player history
  obtain ⟨hverdict, hcelebrate, hinitial⟩ := before.check_report player call
  have hfinished := before.isFinished_check player call
  have hmanifest := before.manifest?_check player call
  have hok : report.verdict.ok = call.passes := congrArg Verdict.ok hverdict
  rw [hdown] at hcelebrate hinitial hfinished hmanifest
  refine ⟨hverdict, ?_, ?_, ?_, ?_, ?_, start.manifest?_afterChecks player history⟩
  · show (before.check player call).1.celebrate = true ↔ _
    rw [hcelebrate, hok]
    cases call.fails start.failing .fetch <;> cases before.isFinished player <;>
      cases call.passes <;> decide
  · show (before.check player call).2.isFinished player = true ↔ _
    rw [hfinished, hok, CheckCall.records]
    cases call.fails start.failing .validate <;> cases call.fails start.failing .update <;>
      cases before.isFinished player <;> cases call.passes <;> decide
  · show (before.check player call).2.manifest? player = _
    rw [hmanifest, hok, CheckCall.keeps?]
    cases call.fails start.failing .validate <;> cases call.passes <;> rfl
  · show ¬ ((before.check player call).1.celebrate = true ∧
      (before.check player call).1.initialChecklist.all (·.satisfied) = true)
    rw [hcelebrate, hinitial]
    cases call.fails start.failing .fetch <;> cases before.isFinished player <;>
      cases call.passes <;> decide
  · show (start.afterChecks player history).isFinished player = true ↔ _
    rw [isFinished_afterChecks, Bool.or_eq_true, List.any_eq_true]

/-- A manifest that passes is celebrated once.  The first time the store works but cannot grade it,
so the update records the level and no manifest is kept; the second time everything gets through. -/
theorem celebrated_once_of_passes (s : MemoryStore) (player : String) {manifest : String}
    (hup : s.failing = false) (hnew : s.isFinished player = false)
    (hpasses : (checkManifest manifest).ok = true) :
    let first := s.check player ⟨manifest, [.validate]⟩
    let second := first.2.check player ⟨manifest, []⟩
    first.1.celebrate = true ∧ first.2.isFinished player = true ∧
      first.2.manifest? player = s.manifest? player ∧
      second.1.celebrate = false ∧ second.2.manifest? player = some manifest := by
  intro first second
  have hcall : ∀ failing, (CheckCall.mk manifest failing).passes = true := fun _ => hpasses
  have hfinished : first.2.isFinished player = true := by
    rw [s.isFinished_check, hnew, hup, CheckCall.records, hcall]
    rfl
  have hstill : first.2.failing = false := by
    rw [s.failing_check, hup]
  obtain ⟨-, hfirst, -⟩ := s.check_report player ⟨manifest, [.validate]⟩
  obtain ⟨-, hsecond, -⟩ := first.2.check_report player ⟨manifest, []⟩
  refine ⟨?_, hfinished, ?_, ?_, ?_⟩
  · rw [hfirst, hup, hnew, hcall]
    rfl
  · rw [s.manifest?_check, hup, CheckCall.keeps?, hcall]
    rfl
  · rw [hsecond, hstill, hfinished, hcall]
    rfl
  · rw [first.2.manifest?_check, hstill, CheckCall.keeps?, hcall]
    rfl

example : (new.check "ada" ⟨passingManifest, [.validate]⟩).1.celebrate = true :=
  (new.celebrated_once_of_passes "ada" rfl rfl ok_checkManifest_passingManifest).1

end MemoryStore

end EscapeRoom
