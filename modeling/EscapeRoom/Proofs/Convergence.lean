import EscapeRoom.Proofs.Schedule
import Mathlib.Data.List.Perm.Basic

/-!
# Player and store agree once everything has arrived

While no request fails and nobody else writes, whatever is told in the background is told to both
sides. Stale and overtaken answers cannot take anything back, so once nothing is under way and no
event waits, the tracker and the store hold the same flags: those from the beginning and those of
all signals.

* `Play.Converging` — what holds at every moment of a calm schedule.
* `Play.Converging.advance` — a calm step keeps it.
* `Play.tracker_and_store_converge` — what remains when everything has arrived, and what remains in
  any case.
-/

namespace EscapeRoom

/-! ### Requests under way -/

/-- The signals that requests have yet to report. -/
def SyncRequest.outstanding (requests : List SyncRequest) : TaskState :=
  .ofSignals (requests.flatMap signals)

namespace SyncRequest

@[simp] theorem outstanding_nil : outstanding [] = ⊥ := rfl

theorem outstanding_append (xs ys : List SyncRequest) :
    outstanding (xs ++ ys) = outstanding xs ⊔ outstanding ys := by
  rw [outstanding, List.flatMap_append, TaskState.ofSignals_append]
  rfl

theorem outstanding_push (signals : List TaskSignal) :
    outstanding (signals.map push) = .ofSignals signals := by
  induction signals with
  | nil => rfl
  | cons signal rest ih =>
      rw [TaskState.ofSignals_cons, ← ih]
      exact TaskState.ofSignals_cons signal _

theorem outstanding_eraseIdx {requests : List SyncRequest} {index : Nat} {request : SyncRequest}
    (h : requests[index]? = some request) :
    outstanding requests = .ofSignals request.signals ⊔ outstanding (requests.eraseIdx index) := by
  induction requests generalizing index with
  | nil => cases h
  | cons r rest ih =>
      cases index with
      | zero =>
          cases h
          exact TaskState.ofSignals_append request.signals _
      | succ index =>
          have hrest := ih (show rest[index]? = some request from h)
          show TaskState.ofSignals (r.signals ++ rest.flatMap signals) = _
          rw [TaskState.ofSignals_append]
          rw [outstanding] at hrest
          rw [hrest, sup_left_comm]
          congr 1
          exact (TaskState.ofSignals_append r.signals _).symm

end SyncRequest

/-- An entry of a list is the one that is taken out or is left. -/
theorem eq_or_mem_eraseIdx {α : Type} {xs : List α} {index : Nat} {x y : α}
    (hx : xs[index]? = some x) (hy : y ∈ xs) : y = x ∨ y ∈ xs.eraseIdx index := by
  obtain ⟨hlt, rfl⟩ := List.getElem?_eq_some_iff.1 hx
  exact List.mem_cons.1 ((List.getElem_cons_eraseIdx_perm hlt).mem_iff.2 hy)

namespace Play

/-- What holds at every moment of a calm schedule that began with `initial` in the store and has
given signals that say `reported`. -/
structure Converging (player : String) (initial reported : TaskState)
    (p : Play (Unreliable MemoryStore)) : Prop where
  online : p.online = true
  /-- No request fails. -/
  healthy : p.store.Healthy
  /-- The store has lost nothing. -/
  initial_le_store : initial ≤ p.store.inner.tasks player .docker
  /-- What the store lacks is under way. -/
  reported_le_store : reported ≤
    p.store.inner.tasks player .docker ⊔ SyncRequest.outstanding p.inFlight
  /-- The store knows of nothing else. -/
  store_le : p.store.inner.tasks player .docker ≤ initial ⊔ reported
  /-- Nothing else is under way. -/
  outstanding_le : SyncRequest.outstanding p.inFlight ≤ initial ⊔ reported
  /-- No event brings anything else. -/
  events_le : ∀ event ∈ p.events, event.tasks ≤ initial ⊔ reported
  /-- The tracker knows of nothing else. -/
  tracker_le : p.level.tracker.tasks ≤ initial ⊔ reported
  /-- The tracker has every signal. -/
  reported_le_tracker : reported ≤ p.level.tracker.tasks
  /-- What the store held in the beginning is being loaded, waits, or has arrived. -/
  initial_arrives : SyncRequest.load ∈ p.inFlight ∨
    (∃ event ∈ p.events, initial ≤ event.tasks) ∨ initial ≤ p.level.tracker.tasks

namespace Converging

variable {player : String} {initial reported : TaskState} {p : Play (Unreliable MemoryStore)}

/-- A level that asks for earlier progress is on its way. -/
theorem start {store : MemoryStore} (hhealthy : store.failing = false)
    (hrequired : .forLevel .docker ≤ store.tasks player .docker) :
    Converging player (store.tasks player .docker) ⊥ (Play.new true ⟨store, []⟩).start where
  online := rfl
  healthy := ⟨rfl, hhealthy⟩
  initial_le_store := le_refl _
  reported_le_store := bot_le
  store_le := le_sup_left
  outstanding_le := bot_le
  events_le _ h := absurd h List.not_mem_nil
  tracker_le := hrequired.trans le_sup_left
  reported_le_tracker := bot_le
  initial_arrives := .inl List.mem_cons_self

/-- A line gives signals to the tracker and sends them to the store. -/
theorem typeLine (h : Converging player initial reported p) (text : String) (now : TimeOfDay) :
    Converging player initial (reported ⊔ .ofSignals (p.level.handleLine text now).signals)
      (p.typeLine text now).2 := by
  have htasks := p.level.handleLine_tasks text now
  rw [typeLine_online h.online]
  generalize (p.level.handleLine text now).signals = signals at htasks ⊢
  have hmore : initial ⊔ reported ≤ initial ⊔ (reported ⊔ .ofSignals signals) :=
    sup_le_sup_left le_sup_left _
  have hsignals : TaskState.ofSignals signals ≤ initial ⊔ (reported ⊔ .ofSignals signals) :=
    le_sup_right.trans le_sup_right
  have hunderway : SyncRequest.outstanding (p.inFlight ++ signals.map .push) =
      SyncRequest.outstanding p.inFlight ⊔ .ofSignals signals := by
    rw [SyncRequest.outstanding_append, SyncRequest.outstanding_push]
  refine ⟨h.online, h.healthy, h.initial_le_store, ?_, h.store_le.trans hmore, ?_,
    fun event he => (h.events_le event he).trans hmore, ?_, ?_, ?_⟩
  · dsimp only
    rw [hunderway, ← sup_assoc]
    exact sup_le_sup_right h.reported_le_store _
  · dsimp only
    rw [hunderway]
    exact sup_le (h.outstanding_le.trans hmore) hsignals
  · rw [htasks]
    exact sup_le (h.tracker_le.trans hmore) hsignals
  · rw [htasks]
    exact sup_le_sup_right h.reported_le_tracker _
  · rcases h.initial_arrives with hload | hevent | harrived
    · exact .inl (List.mem_append_left _ hload)
    · exact .inr (.inl hevent)
    · refine .inr (.inr ?_)
      rw [htasks]
      exact harrived.trans le_sup_left

/-- A request that is carried out brings its signals to the store, and an event back. -/
theorem execute (h : Converging player initial reported p) (index : Nat) :
    Converging player initial reported (p.execute (.toMemory player) index) := by
  cases hrequest : p.inFlight[index]? with
  | none =>
      rw [execute_none hrequest]
      exact h
  | some request =>
      rw [execute_some hrequest]
      have hunderway := SyncRequest.outstanding_eraseIdx hrequest
      have hsignals : .ofSignals request.signals ≤ initial ⊔ reported :=
        (hunderway ▸ le_sup_left).trans h.outstanding_le
      rcases Connection.perform_outcome player p.store request with
        ⟨hunhealthy, _, _, _⟩ | ⟨hhealthy, _, hbrings, hleaves⟩
      · exact absurd h.healthy hunhealthy
      have hstore : ((Connection.toMemory player).perform request p.store).2.inner.tasks
          player .docker ≤ initial ⊔ reported := by
        rw [hleaves]
        exact sup_le h.store_le hsignals
      have hinitial : initial ≤ ((Connection.toMemory player).perform request p.store).2.inner.tasks
          player .docker := by
        rw [hleaves]
        exact h.initial_le_store.trans le_sup_left
      refine ⟨h.online, hhealthy h.healthy, hinitial, ?_, hstore, ?_, ?_, h.tracker_le,
        h.reported_le_tracker, ?_⟩
      · dsimp only
        rw [hleaves, sup_assoc, ← hunderway]
        exact h.reported_le_store
      · exact (hunderway ▸ le_sup_right).trans h.outstanding_le
      · intro event he
        rcases List.mem_append.1 he with hbefore | hnew
        · exact h.events_le event hbefore
        · rw [List.mem_singleton.1 hnew, hbrings]
          exact hstore
      · rcases h.initial_arrives with hload | ⟨event, he, hle⟩ | harrived
        -- the load is this very request, whose event brings the flags, or it is still under way
        · rcases eq_or_mem_eraseIdx hrequest hload with _ | hleft
          · exact .inr (.inl ⟨_, List.mem_append_right _ (List.mem_singleton.2 rfl),
              hinitial.trans (le_of_eq hbrings.symm)⟩)
          · exact .inl hleft
        · exact .inr (.inl ⟨event, List.mem_append_left _ he, hle⟩)
        · exact .inr (.inr harrived)

/-- The order in which events wait does not matter. -/
theorem overtake (h : Converging player initial reported p) (index : Nat) :
    Converging player initial reported (p.advance player (.overtake index)) := by
  simp only [advance]
  split
  · exact h
  · rename_i first hfirst
    refine { h with events_le := ?_, initial_arrives := ?_ }
    · intro event he
      rcases List.mem_cons.1 he with rfl | he
      · exact h.events_le _ (List.mem_of_getElem? hfirst)
      · exact h.events_le _ (List.mem_of_mem_eraseIdx he)
    · refine h.initial_arrives.imp_right (Or.imp_left ?_)
      rintro ⟨event, he, hle⟩
      exact ⟨event, List.mem_cons.2 (eq_or_mem_eraseIdx hfirst he), hle⟩

/-- An event brings the tracker nothing but what both sides are to have. -/
theorem deliver (h : Converging player initial reported p) (now : TimeOfDay) :
    Converging player initial reported (p.advance player (.deliver now)) := by
  cases hevents : p.events with
  | nil =>
      rw [deliver_nil now hevents]
      exact h
  | cons first rest =>
      rw [deliver_cons now hevents]
      have htasks := p.level.handleEvent_tasks first now
      have hfirst : first ∈ p.events := hevents ▸ List.mem_cons_self
      refine { h with events_le := ?_, tracker_le := ?_, reported_le_tracker := ?_,
                      initial_arrives := ?_ }
      · exact fun event he => h.events_le event (hevents ▸ List.mem_cons_of_mem _ he)
      · dsimp only
        rw [htasks]
        exact sup_le h.tracker_le (h.events_le first hfirst)
      · dsimp only
        rw [htasks]
        exact h.reported_le_tracker.trans le_sup_left
      · dsimp only
        rw [htasks]
        rcases h.initial_arrives with hload | ⟨event, he, hle⟩ | harrived
        · exact .inl hload
        · rw [hevents] at he
          rcases List.mem_cons.1 he with rfl | he
          · exact .inr (.inr (hle.trans le_sup_right))
          · exact .inr (.inl ⟨event, he, hle⟩)
        · exact .inr (.inr (harrived.trans le_sup_left))

/-- Other clients may read, and write elsewhere. -/
theorem others (h : Converging player initial reported p) {operation : StoreOperation}
    (hcalm : operation.signalsFor player = []) :
    Converging player initial reported (p.advance player (.others operation)) := by
  rcases p.store.perform_cases operation with ⟨hunhealthy, _⟩ | hanswered
  · exact absurd h.healthy hunhealthy
  have hstore := advance_store_tasks player p (.others operation)
  have hwrites : p.writes player (.others operation) = [] := by
    rw [writes, hanswered]
    exact hcalm
  rw [hwrites, TaskState.ofSignals_nil, sup_bot_eq] at hstore
  have hhealthy : (p.advance player (.others operation)).store.Healthy := by
    rw [advance]
    dsimp only
    rw [hanswered]
    exact ⟨h.healthy.1, (MemoryStore.failing_effect _ _).trans h.healthy.2⟩
  exact { h with healthy := hhealthy
                 initial_le_store := hstore ▸ h.initial_le_store
                 reported_le_store := hstore ▸ h.reported_le_store
                 store_le := hstore ▸ h.store_le }

/-- **A calm step keeps everything on its way.** -/
theorem advance (h : Converging player initial reported p) {step : PlayStep}
    (hcalm : step.IsCalm player) :
    Converging player initial (reported ⊔ .ofSignals (p.emits step)) (p.advance player step) := by
  have hquiet : reported ⊔ .ofSignals [] = reported := sup_bot_eq _
  cases step with
  | line text now => exact h.typeLine text now
  | execute index => exact hquiet ▸ h.execute index
  | overtake index => exact hquiet ▸ h.overtake index
  | deliver now => exact hquiet ▸ h.deliver now
  | others operation => exact hquiet ▸ h.others hcalm
  | refuse requests => exact hcalm.elim
  | lose index request error => exact hcalm.elim

theorem follow {steps : List PlayStep} (h : Converging player initial reported p)
    (hcalm : ∀ step ∈ steps, step.IsCalm player) :
    Converging player initial (reported ⊔ .ofSignals (p.emitted player steps))
      (p.follow player steps) := by
  induction steps generalizing reported p with
  | nil => exact (sup_bot_eq reported).symm ▸ h
  | cons step rest ih =>
      obtain ⟨hstep, hrest⟩ := List.forall_mem_cons.1 hcalm
      have hafter := ih (h.advance hstep) hrest
      rw [sup_assoc, ← TaskState.ofSignals_append] at hafter
      exact hafter

/-- When nothing is under way and no event waits, everything has arrived on both sides. -/
theorem settled (h : Converging player initial reported p) (hinFlight : p.inFlight = [])
    (hevents : p.events = []) :
    p.level.tracker.tasks = initial ⊔ reported ∧
      p.store.inner.tasks player .docker = initial ⊔ reported := by
  -- nothing is under way, so the bounds on each side meet
  have hreported := h.reported_le_store
  have hinitial := h.initial_arrives
  rw [hinFlight, SyncRequest.outstanding_nil, sup_bot_eq] at hreported
  rw [hinFlight, hevents] at hinitial
  rcases hinitial with hload | ⟨event, he, _⟩ | harrived
  · exact absurd hload List.not_mem_nil
  · exact absurd he List.not_mem_nil
  · exact ⟨le_antisymm h.tracker_le (sup_le harrived h.reported_le_tracker),
      le_antisymm h.store_le (sup_le h.initial_le_store hreported)⟩

end Converging

/-- **Player and store converge.**  A play begins with any flags in the store.  After a calm
schedule that leaves nothing under way and no event waiting, a fetch reports the very flags of the
tracker, and these are the flags from the beginning, the required tasks and all signals that were
given, whatever the order of requests and events.  After any schedule, with failures and other
writers, the store still has every flag from the beginning and every flag that was written, and the
tracker has every flag that a signal set. -/
theorem tracker_and_store_converge (player : String) (history : List StoreOperation)
    (flags : List (String × Bool)) (steps : List PlayStep) :
    let store := (MemoryStore.after history).seed player .docker flags
    let initial := store.tasks player .docker
    let first := (Play.new true ⟨store, []⟩).start
    let last := first.follow player steps
    ((∀ step ∈ steps, step.IsCalm player) → last.inFlight = [] → last.events = [] →
      (∃ progress after,
        (Connection.toMemory player).store.fetch player .docker last.store = (.ok progress, after) ∧
        progress.tasks = last.level.tracker.tasks) ∧
      last.level.tracker.tasks =
        (initial.merge (.forLevel .docker)).merge (.ofSignals (first.emitted player steps))) ∧
    (∀ task, initial.isDone task = true →
      (last.store.inner.tasks player .docker).isDone task = true) ∧
    (∀ signal ∈ first.written player steps, signal.completed = true →
      (last.store.inner.tasks player .docker).isDone signal.task = true) ∧
    (∀ signal ∈ first.emitted player steps,
      last.level.tracker.tasks.isDone signal.task = true) := by
  intro store initial first last
  have hrequired : .forLevel .docker ≤ initial := by
    have hseed : initial = _ :=
      MemoryStore.tasks_seed (MemoryStore.after history) player player .docker .docker flags
    rw [hseed]
    exact (MemoryStore.required_le_tasks_after history player .docker).trans le_sup_left
  have hhealthy : store.failing = false := MemoryStore.failing_after history
  have hstore : last.store.inner.tasks player .docker =
      initial ⊔ .ofSignals (first.written player steps) := first.follow_store_tasks player steps
  have htracker := first.le_follow_tracker_tasks player steps
  refine ⟨fun hcalm hinFlight hevents => ?_, fun task hdone => ?_, fun signal hs hcompleted => ?_,
    fun signal hs => ?_⟩
  · have hconverging := (Converging.start hhealthy hrequired).follow hcalm
    obtain ⟨htasks, hstored⟩ := hconverging.settled hinFlight hevents
    have hfetch := (Unreliable.attempt_cases .fetch (fun s => (s.progress player .docker, s))
      last.store).resolve_left fun hrefused => hrefused.1 hconverging.healthy
    refine ⟨⟨_, _, hfetch, hstored.trans htasks.symm⟩, ?_⟩
    rw [htasks, bot_sup_eq, TaskState.merge_eq_sup, TaskState.merge_eq_sup,
      sup_eq_left.2 hrequired]
  · exact TaskState.isDone_mono (hstore ▸ le_sup_left) hdone
  · exact TaskState.isDone_of_mem (hstore ▸ le_sup_right) hs hcompleted
  · exact TaskState.isDone_of_mem (le_sup_right.trans htracker) hs
      (first.emitted_completed player steps signal hs)

/-- The push is carried out before the load, and the answer to the load is handled first. -/
theorem converge_when_answers_overtake :
    let now : TimeOfDay := ⟨12, 0, 0⟩
    let store := (MemoryStore.after []).seed "ada" .docker [(Task.run, true)]
    let steps : List PlayStep :=
      [.line "docker pull nginx" now, .execute 1, .execute 0, .overtake 1, .deliver now,
        .deliver now]
    let first := (Play.new true ⟨store, []⟩).start
    let last := first.follow "ada" steps
    (∀ step ∈ steps, step.IsCalm "ada") ∧ last.inFlight = [] ∧ last.events = [] ∧
    (∃ progress after,
      (Connection.toMemory "ada").store.fetch "ada" .docker last.store = (.ok progress, after) ∧
      progress.tasks = last.level.tracker.tasks) ∧
    first.emitted "ada" steps = [.done Task.pull] ∧
    last.level.tracker.tasks.toList =
      [(Task.logs, false), (Task.pull, true), (Task.run, true)] := by
  have hconverge := tracker_and_store_converge "ada" [] [(Task.run, true)]
    [.line "docker pull nginx" ⟨12, 0, 0⟩, .execute 1, .execute 0, .overtake 1,
      .deliver ⟨12, 0, 0⟩, .deliver ⟨12, 0, 0⟩]
  dsimp only at hconverge ⊢
  obtain ⟨hsettled, -⟩ := hconverge
  refine ⟨?calm, ?inFlight, ?events, (hsettled ?calm ?inFlight ?events).1, ?_, ?_⟩
  case calm => simp [PlayStep.IsCalm]
  all_goals decide +kernel

end Play

end EscapeRoom
