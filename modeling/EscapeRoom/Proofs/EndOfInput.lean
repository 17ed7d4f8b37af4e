import EscapeRoom.Proofs.ConsoleRun
import Mathlib.Data.List.Perm.Basic

/-!
# What the end of the input cuts off

A signal is recorded in the tracker at once, and its update is sent on its way.  An update under way
is carried out or stays under way, so nothing is lost while the loop goes on.  The loop does not
wait for updates when the input ends: those that are under way at that moment are never carried out.

* `Play.Accounts` — what became of signals and requests between two states of a play.
* `Console.recorded`, `Console.carriedOut` — the signals recorded and the requests carried out.
* `Console.accounts_step`, `Console.accounts_follow` — one step, and a run.
* `Console.kept_iff_no_update_under_way` — the store has everything unless something was cut off.
-/

namespace EscapeRoom

namespace Connection

variable {σ : Type} (c : Connection (StateM σ))

theorem performAll_append (first second : List SyncRequest) (s : σ) :
    c.performAll (first ++ second) s =
      ((c.performAll first s).1 ++ (c.performAll second (c.performAll first s).2).1,
        (c.performAll second (c.performAll first s).2).2) := by
  induction first generalizing s with
  | nil => rfl
  | cons request rest ih =>
      rw [List.cons_append, performAll_cons, performAll_cons, ih]
      rfl

end Connection

/-- The updates of some signals report these signals. -/
theorem SyncRequest.flatMap_signals_push (signals : List TaskSignal) :
    (signals.map push).flatMap SyncRequest.signals = signals := by
  induction signals with
  | nil => rfl
  | cons signal rest ih => exact congrArg (signal :: ·) ih

/-- What became of signals and requests between two states of a play with a store: every request is
carried out or under way, the store is what the requests made of it, and the tracker has the
signals. -/
structure Play.Accounts {σ : Type} (c : Connection (StateM σ)) (recorded : List TaskSignal)
    (carriedOut : List SyncRequest) (before after : Play σ) : Prop where
  online : after.online = before.online
  requests :
    (carriedOut ++ after.inFlight).Perm (before.inFlight ++ recorded.map SyncRequest.push)
  store : after.store = (c.performAll carriedOut before.store).2
  tasks : before.level.tracker.tasks ⊔ .ofSignals recorded ≤ after.level.tracker.tasks

namespace Play.Accounts

variable {σ : Type} {c : Connection (StateM σ)} {p q r : Play σ}

theorem refl (p : Play σ) : Accounts c [] [] p p where
  online := rfl
  requests := by
    rw [List.nil_append, List.map_nil, List.append_nil]
  store := rfl
  tasks := sup_le (le_refl _) bot_le

theorem trans {first second : List TaskSignal} {done more : List SyncRequest}
    (hpq : Accounts c first done p q) (hqr : Accounts c second more q r) :
    Accounts c (first ++ second) (done ++ more) p r where
  online := hqr.online.trans hpq.online
  requests := by
    -- what is under way in between is carried out later or is still under way
    have hlater : (done ++ (more ++ r.inFlight)).Perm
        (done ++ (q.inFlight ++ second.map SyncRequest.push)) := hqr.requests.append_left done
    have hearlier : (done ++ q.inFlight ++ second.map SyncRequest.push).Perm
        (p.inFlight ++ first.map SyncRequest.push ++ second.map SyncRequest.push) :=
      hpq.requests.append_right _
    rw [List.append_assoc done] at hearlier
    rw [List.append_assoc, List.map_append, ← List.append_assoc p.inFlight]
    exact hlater.trans hearlier
  store := by
    rw [hqr.store, hpq.store, Connection.performAll_append]
  tasks := by
    rw [TaskState.ofSignals_append, ← sup_assoc]
    exact (sup_le_sup_right hpq.tasks _).trans hqr.tasks

/-- A line records its signals, and its updates are under way. -/
theorem typeLine (h : p.online = true) (text : String) (now : TimeOfDay) :
    Accounts c (p.level.handleLine text now).signals [] p (p.typeLine text now).2 := by
  rw [typeLine_online h]
  refine ⟨rfl, List.Perm.refl _, rfl, ?_⟩
  rw [DockerLevel.handleLine_tasks]

/-- A request under way is carried out. -/
theorem execute (index : Nat) :
    Accounts c [] p.inFlight[index]?.toList p (p.execute c index) := by
  cases hrequest : p.inFlight[index]? with
  | none =>
      rw [execute_none hrequest]
      exact refl p
  | some request =>
      rw [execute_some hrequest]
      refine ⟨rfl, ?_, rfl, sup_le (le_refl _) bot_le⟩
      rw [List.map_nil, List.append_nil]
      obtain ⟨hindex, rfl⟩ := List.getElem?_eq_some_iff.1 hrequest
      exact List.getElem_cons_eraseIdx_perm hindex

/-- An event takes no flag from the tracker, and sends no request. -/
theorem handleEvent {event : SyncEvent} {rest : List SyncEvent} (now : TimeOfDay) :
    Accounts c [] [] p
      { p with level := (p.level.handleEvent event now).2, events := rest } := by
  refine { refl (c := c) p with tasks := ?_ }
  dsimp only
  rw [DockerLevel.handleEvent_tasks]
  exact sup_le le_sup_left bot_le

end Play.Accounts

namespace Console

variable {σ : Type}

/-- The signals that a step records. -/
def records (s : Console σ) (next : ConsoleStep) : List TaskSignal :=
  if s.status ≠ .running then []
  else
    match next with
    | .line (some text) now => (s.play.level.handleLine text now).signals
    | _ => []

/-- The requests that a step carries out. -/
def carriesOut (s : Console σ) (next : ConsoleStep) : List SyncRequest :=
  if s.status ≠ .running then []
  else
    match next with
    | .execute index => s.play.inFlight[index]?.toList
    | _ => []

/-- What the steps of a run contribute, one after the other. -/
def gather {α : Type} (c : Option (Connection (StateM σ))) (f : Console σ → ConsoleStep → List α) :
    Console σ → List ConsoleStep → List α
  | _, [] => []
  | s, next :: rest => f s next ++ gather c f (s.step c next) rest

theorem mem_gather {α : Type} {c : Option (Connection (StateM σ))}
    {f : Console σ → ConsoleStep → List α} {steps : List ConsoleStep} {s : Console σ} {a : α}
    (ha : a ∈ gather c f s steps) : ∃ t next, a ∈ f t next := by
  induction steps generalizing s with
  | nil => exact absurd ha List.not_mem_nil
  | cons next rest ih =>
      rcases List.mem_append.1 ha with hstep | hrest
      · exact ⟨s, next, hstep⟩
      · exact ih hrest

/-- The signals that a run records. -/
def recorded (c : Option (Connection (StateM σ))) :
    Console σ → List ConsoleStep → List TaskSignal :=
  gather c records

/-- The requests that a run carries out, in their order. -/
def carriedOut (c : Option (Connection (StateM σ))) :
    Console σ → List ConsoleStep → List SyncRequest :=
  gather c carriesOut

theorem recorded_completed {c : Option (Connection (StateM σ))} {s : Console σ}
    {steps : List ConsoleStep} {signal : TaskSignal} (hsignal : signal ∈ s.recorded c steps) :
    signal.completed = true := by
  obtain ⟨t, next, hmem⟩ := mem_gather hsignal
  unfold records at hmem
  split at hmem
  · exact absurd hmem List.not_mem_nil
  · split at hmem
    · exact DockerLevel.handleLine_signals_completed _ _ _ signal hmem
    · exact absurd hmem List.not_mem_nil

section
variable {c : Connection (StateM σ)} {s : Console σ}

theorem accounts_step (h : s.play.online = true) (next : ConsoleStep) :
    Play.Accounts c (s.records next) (s.carriesOut next) s.play (s.step (some c) next).play := by
  unfold records carriesOut
  by_cases hrunning : s.status = .running
  · rw [if_neg (not_not_intro hrunning), if_neg (not_not_intro hrunning)]
    cases next with
    | line text now =>
        cases text with
        | none =>
            rw [step_unreadable hrunning]
            exact .refl s.play
        | some text =>
            rw [step_line hrunning]
            exact .typeLine h text now
    | execute index =>
        rw [step_execute hrunning]
        exact .execute index
    | deliver now =>
        cases hevents : s.play.events with
        | nil =>
            rw [step_deliver_nil hrunning now hevents]
            exact .refl s.play
        | cons event rest =>
            rw [step_deliver hrunning now hevents]
            exact .handleEvent now
    | finish =>
        rw [step_finish hrunning]
        exact .refl s.play
  · rw [if_pos hrunning, if_pos hrunning, step_of_ended hrunning]
    exact .refl s.play

theorem accounts_follow (h : s.play.online = true) (steps : List ConsoleStep) :
    Play.Accounts c (s.recorded (some c) steps) (s.carriedOut (some c) steps) s.play
      (s.follow (some c) steps).play := by
  induction steps generalizing s with
  | nil => exact .refl s.play
  | cons next rest ih =>
      have hstep := accounts_step (c := c) h next
      exact hstep.trans (ih (hstep.online.trans h))

end

/-- **The end of the input cuts off what is under way, and nothing else.**  A player types an input
at a store that fulfils every request.  When the input has ended, the store is what the requests
made of it that had been carried out by then, none of which failed.  Nothing changes any more: the
program ends with its loop and takes what is under way with it, so a console that has ended takes no
step.  The tracker has every recorded signal.  The updates of the recorded signals are those that
were carried out and those that were under way, so all of them reached the store exactly when none
was under way. -/
theorem kept_iff_no_update_under_way {c : Connection (StateM σ)} {P : σ → Prop}
    (hanswers : c.store.Responds true P) (store : σ) (hstore : P store) (input : List UInt8)
    (turns : List ConsoleTurn) (hended : (run (some c) store input turns).status = .finished) :
    let steps := ConsoleStep.schedule (Text.typedInput input) turns
    let recorded := (start true store).recorded (some c) steps
    let carriedOut := (start true store).carriedOut (some c) steps
    let last := run (some c) store input turns
    let applied := carriedOut.flatMap SyncRequest.signals
    let underWay := last.play.inFlight.flatMap SyncRequest.signals
    last.play.store = (c.performAll carriedOut store).2 ∧
      (∀ event ∈ (c.performAll carriedOut store).1, event.isFailure = false) ∧
      (∀ later, last.follow (some c) later = last) ∧
      (∀ signal ∈ recorded, last.play.level.tracker.tasks.isDone signal.task = true) ∧
      recorded.Perm (applied ++ underWay) ∧ (recorded.Perm applied ↔ underWay = []) := by
  intro steps recorded carriedOut last applied underWay
  have haccounts : Play.Accounts c recorded carriedOut (start true store).play last.play :=
    accounts_follow rfl steps
  have hperm : recorded.Perm (applied ++ underWay) := by
    have hrequests : (carriedOut ++ last.play.inFlight).Perm
        ([SyncRequest.load] ++ recorded.map SyncRequest.push) := haccounts.requests
    have hsignals := hrequests.flatMap_right SyncRequest.signals
    rw [List.flatMap_append, List.flatMap_append, SyncRequest.flatMap_signals_push] at hsignals
    exact hsignals.symm
  refine ⟨haccounts.store, Connection.performAll_responds hanswers _ hstore,
    follow_of_ended (by rw [hended]; decide), ?_, hperm, ?_⟩
  · intro signal hsignal
    exact TaskState.isDone_of_mem (le_sup_right.trans haccounts.tasks) hsignal
      (recorded_completed hsignal)
  · constructor
    · intro hall
      have hlength := (hall.symm.trans hperm).length_eq
      rw [List.length_append] at hlength
      exact List.length_eq_zero_iff.1 (by omega)
    · intro hnone
      rwa [hnone, List.append_nil] at hperm

/-- The update of a pull is carried out before the end of the input. -/
theorem kept_when_carried_out_in_time :
    let now : TimeOfDay := ⟨12, 0, 0⟩
    let c : Connection (StateM MemoryStore) := ⟨MemoryStore.store, "player-1"⟩
    let input := Text.Utf8.encode "docker pull nginx".toList
    let turns : List ConsoleTurn := [.execute 0, .deliver now, .read now, .execute 0, .read now]
    let steps := ConsoleStep.schedule (Text.typedInput input) turns
    let recorded := (start true MemoryStore.new).recorded (some c) steps
    let carriedOut := (start true MemoryStore.new).carriedOut (some c) steps
    let last := run (some c) .new input turns
    c.store.Responds true (fun s => s.failing = false) ∧ last.status = .finished ∧
      recorded = [.done Task.pull] ∧ recorded.Perm (carriedOut.flatMap SyncRequest.signals) ∧
      last.play.store.updates = [("player-1", .docker, .done Task.pull)] := by
  intro now c input turns
  have hanswers : c.store.Responds true (fun s => s.failing = false) := MemoryStore.responds true
  have hended : (run (some c) .new input turns).status = .finished := by decide +kernel
  have hkept := kept_iff_no_update_under_way hanswers .new rfl input turns hended
  dsimp only at hkept ⊢
  obtain ⟨-, -, -, -, -, hall⟩ := hkept
  refine ⟨hanswers, hended, ?_, hall.2 ?_, ?_⟩
  all_goals decide +kernel

/-- A player pulls an image with the last line, and the input ends before the update is carried
out.  The tracker has the task for done, and the store, none of whose requests fails, never will. -/
theorem update_cut_off_by_end_of_input :
    let now : TimeOfDay := ⟨12, 0, 0⟩
    let c : Connection (StateM MemoryStore) := ⟨MemoryStore.store, "player-1"⟩
    let input := Text.Utf8.encode "docker pull nginx".toList
    let turns : List ConsoleTurn := [.execute 0, .deliver now, .read now, .read now]
    let steps := ConsoleStep.schedule (Text.typedInput input) turns
    let recorded := (start true MemoryStore.new).recorded (some c) steps
    let carriedOut := (start true MemoryStore.new).carriedOut (some c) steps
    let last := run (some c) .new input turns
    c.store.Responds true (fun s => s.failing = false) ∧ last.status = .finished ∧
      last.play.level.tracker.tasks.isDone Task.pull = true ∧
      recorded = [.done Task.pull] ∧ carriedOut.flatMap SyncRequest.signals = [] ∧
      last.play.store.updates = [] ∧
      (last.play.store.tasks "player-1" .docker).isDone Task.pull = false ∧
      ∀ later, last.follow (some c) later = last := by
  refine ⟨MemoryStore.responds true, ?_, ?_, ?_, ?_, ?_, ?_, follow_of_ended ?_⟩
  all_goals decide +kernel

end Console

end EscapeRoom
