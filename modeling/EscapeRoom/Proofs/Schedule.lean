import EscapeRoom.Proofs.LevelRun
import EscapeRoom.Proofs.StoreRun

/-!
# Schedules of a play

A play is a level with its requests under way, its waiting events and a store, and nothing fixes the
order in which lines are typed, requests are carried out and events are handled.  A schedule is any
list of such steps.  Between them other clients may use the store, requests may be made to fail, and
answers may get lost or pass each other.

* `PlayStep`, `Play.advance`, `Play.follow` — the steps and their runs.
* `Play.emitted`, `Play.written` — the signals that lines gave, and those that reached the store.
* `Connection.perform_outcome` — what carrying out a request does.
* `Play.advance_store_tasks`, `Play.le_advance_tracker_tasks` — what a step does to the flags.
* `Play.follow_store_tasks`, `Play.le_follow_tracker_tasks` — what a schedule does to them.
-/

namespace EscapeRoom

/-! ### Requests that may be refused -/

namespace Unreliable

variable {α : Type}

/-- Whether no request fails. -/
def Healthy (u : Unreliable MemoryStore) : Prop := u.failing = [] ∧ u.inner.failing = false

/-- A request is refused, which does not happen in a healthy store, and changes nothing, or it is
answered. -/
theorem attempt_cases (request : StoreRequest) (f : MemoryStore → α × MemoryStore)
    (u : Unreliable MemoryStore) :
    (¬ u.Healthy ∧ ∃ e, attempt request (MemoryStore.answer f) u = (.error e, u)) ∨
      attempt request (MemoryStore.answer f) u =
        (.ok (f u.inner).1, { u with inner := (f u.inner).2 }) := by
  cases h : u.refuses request with
  | false => exact .inr (attempt_answered h f)
  | true =>
      refine .inl ⟨fun hhealthy => ?_, attempt_refused h f⟩
      rw [refuses, hhealthy.1, hhealthy.2] at h
      exact Bool.false_ne_true h

end Unreliable

/-- The connection of a player to a store in memory of which requests may fail. -/
def Connection.toMemory (player : String) : Connection (StateM (Unreliable MemoryStore)) :=
  ⟨Unreliable.store MemoryStore.store, player⟩

/-- The signals that a request reports. -/
def SyncRequest.signals : SyncRequest → List TaskSignal
  | .load => []
  | .push signal => [signal]

/-- Whether an event reports a failure. -/
def SyncEvent.isFailure : SyncEvent → Bool
  | .failed _ _ => true
  | _ => false

namespace Connection

section
variable {σ : Type} (c : Connection (StateM σ)) (s : σ)

theorem load_eq :
    c.load s =
      match c.store.fetch c.player .docker (c.store.register c.player s).2 with
      | (.ok progress, after) => (.loaded progress, after)
      | (.error e, after) => (.failed .load e, after) := by
  simp only [load, bind, StateT.bind]
  rcases c.store.register c.player s with ⟨registered, between⟩
  dsimp only
  rcases c.store.fetch c.player .docker between with ⟨answer, after⟩
  cases answer <;> rfl

theorem push_eq (signal : TaskSignal) :
    c.push signal s =
      match c.store.update c.player .docker signal s with
      | (.ok progress, after) => (.updated progress, after)
      | (.error e, after) => (.failed (.push signal) e, after) := by
  simp only [push, bind, StateT.bind]
  rcases c.store.update c.player .docker signal s with ⟨answer, after⟩
  cases answer <;> rfl

end

end Connection

/-- What carrying out a request may do to a store whose flags of the player are `before`. -/
inductive SyncRequest.Outcome (player : String) (request : SyncRequest)
    (before : Unreliable MemoryStore) : SyncEvent → Unreliable MemoryStore → Prop
  /-- It fails and leaves the flags alone. -/
  | failed {event : SyncEvent} {after : Unreliable MemoryStore} (unhealthy : ¬ before.Healthy)
      (failure : event.isFailure = true) (brings : event.tasks = ⊥)
      (leaves : after.inner.tasks player .docker = before.inner.tasks player .docker) :
      Outcome player request before event after
  /-- It joins its signals to the flags, and its event brings the flags after that. -/
  | answered {event : SyncEvent} {after : Unreliable MemoryStore}
      (healthy : before.Healthy → after.Healthy)
      (success : event.isFailure = false)
      (brings : event.tasks = after.inner.tasks player .docker)
      (leaves : after.inner.tasks player .docker =
        before.inner.tasks player .docker ⊔ .ofSignals request.signals) :
      Outcome player request before event after

namespace Connection

variable (player : String) (u : Unreliable MemoryStore)

/-- Making the player known leaves the flags alone, whether it works or not. -/
theorem register_memory :
    ((toMemory player).store.register player u).2.inner.tasks player .docker =
      u.inner.tasks player .docker ∧
    (((toMemory player).store.register player u).2.Healthy ↔ u.Healthy) := by
  have hregister : (toMemory player).store.register player u =
      Unreliable.attempt .register (MemoryStore.answer fun s => ((), s.register player)) u := rfl
  rw [hregister]
  rcases Unreliable.attempt_cases .register (fun s => ((), s.register player)) u with
    ⟨_, e, hrefused⟩ | hanswered
  · rw [hrefused]
    exact ⟨rfl, Iff.rfl⟩
  · rw [hanswered]
    exact ⟨rfl, Iff.rfl⟩

theorem load_outcome :
    SyncRequest.Outcome player .load u ((toMemory player).load u).1
      ((toMemory player).load u).2 := by
  have hplayer : (toMemory player).player = player := rfl
  -- the fetch is made whether registering worked or not, so only the store between is kept
  obtain ⟨htasks, hhealthy⟩ := register_memory player u
  rw [load_eq, hplayer]
  generalize ((toMemory player).store.register player u).2 = between at htasks hhealthy ⊢
  have hfetch : (toMemory player).store.fetch player .docker between = Unreliable.attempt .fetch
      (MemoryStore.answer fun s => (s.progress player .docker, s)) between := rfl
  rw [hfetch]
  rcases Unreliable.attempt_cases .fetch (fun s => (s.progress player .docker, s)) between with
    ⟨hunhealthy, e, hrefused⟩ | hanswered
  · rw [hrefused]
    exact .failed (fun h => hunhealthy (hhealthy.2 h)) rfl rfl htasks
  · rw [hanswered]
    refine .answered hhealthy.2 rfl rfl ?_
    rw [SyncRequest.signals, TaskState.ofSignals_nil, sup_bot_eq]
    exact htasks

theorem push_outcome (signal : TaskSignal) :
    SyncRequest.Outcome player (.push signal) u ((toMemory player).push signal u).1
      ((toMemory player).push signal u).2 := by
  have hupdate : (toMemory player).store.update (toMemory player).player .docker signal u =
      Unreliable.attempt .update (MemoryStore.answer fun s =>
        ((s.update player .docker signal).progress player .docker,
          s.update player .docker signal)) u := rfl
  rw [push_eq, hupdate]
  rcases Unreliable.attempt_cases .update (fun s => ((s.update player .docker signal).progress
    player .docker, s.update player .docker signal)) u with ⟨hunhealthy, e, hrefused⟩ | hanswered
  · rw [hrefused]
    exact .failed hunhealthy rfl rfl rfl
  · rw [hanswered]
    refine .answered id rfl rfl ?_
    have htasks := MemoryStore.tasks_update u.inner player player .docker .docker signal
    rw [if_pos ⟨rfl, rfl⟩] at htasks
    exact htasks

theorem perform_outcome (request : SyncRequest) :
    request.Outcome player u ((toMemory player).perform request u).1
      ((toMemory player).perform request u).2 := by
  cases request with
  | load => exact load_outcome player u
  | push signal => exact push_outcome player u signal

end Connection

/-! ### What other clients do -/

/-- The signals of a request that concern a player's container level. -/
def StoreOperation.signalsFor (player : String) : StoreOperation → List TaskSignal
  | .update q .docker signal => if player = q then [signal] else []
  | _ => []

theorem MemoryStore.tasks_effect_docker (s : MemoryStore) (player : String)
    (operation : StoreOperation) :
    (s.effect operation).tasks player .docker =
      s.tasks player .docker ⊔ .ofSignals (operation.signalsFor player) := by
  cases operation with
  | register | fetch => exact (sup_bot_eq _).symm
  | update q level signal =>
      rw [effect, tasks_update]
      cases level with
      | docker =>
          rw [StoreOperation.signalsFor]
          by_cases hq : player = q
          · rw [if_pos ⟨rfl, hq⟩, if_pos hq]
          · rw [if_neg fun h => hq h.2, if_neg hq]
            rfl
      | manifest =>
          rw [if_neg fun h => Level.noConfusion h.1]
          rfl
  | validate q manifest =>
      simp only [effect, StoreOperation.signalsFor, TaskState.ofSignals_nil]
      split
      · rw [tasks_accept, if_neg fun h => Level.noConfusion h.1]
      · exact (sup_bot_eq _).symm

namespace Unreliable

/-- The answer to a request, read by `g`. -/
theorem attempt_map_cases {α β : Type} (request : StoreRequest)
    (f : MemoryStore → α × MemoryStore) (g : α → β) (u : Unreliable MemoryStore) :
    (¬ u.Healthy ∧ ∃ e, (do return (← attempt request (MemoryStore.answer f)).map g :
        StateM (Unreliable MemoryStore) (Except StoreError β)) u = (.error e, u)) ∨
      (do return (← attempt request (MemoryStore.answer f)).map g :
          StateM (Unreliable MemoryStore) (Except StoreError β)) u =
        (.ok (g (f u.inner).1), { u with inner := (f u.inner).2 }) := by
  simp only [bind, StateT.bind]
  rcases attempt_cases request f u with ⟨hunhealthy, e, hrefused⟩ | hanswered
  · rw [hrefused]
    exact .inl ⟨hunhealthy, e, rfl⟩
  · rw [hanswered]
    exact .inr rfl

/-- A request is refused, which does not happen in a healthy store, or has its effect. -/
theorem perform_cases (u : Unreliable MemoryStore) (operation : StoreOperation) :
    (¬ u.Healthy ∧ ∃ e, (store MemoryStore.store).perform operation u = (.error e, u)) ∨
      (store MemoryStore.store).perform operation u =
        (.ok (u.inner.answerTo operation), { u with inner := u.inner.effect operation }) := by
  cases operation with
  | register player =>
      exact attempt_map_cases .register (fun s => ((), s.register player))
        (fun _ => StoreAnswer.registered) u
  | fetch player level =>
      exact attempt_map_cases .fetch (fun s => (s.progress player level, s))
        StoreAnswer.progress u
  | update player level signal =>
      exact attempt_map_cases .update (fun s =>
        ((s.update player level signal).progress player level, s.update player level signal))
        StoreAnswer.progress u
  | validate player manifest =>
      exact attempt_map_cases .validate (fun s => (checkManifest manifest,
        if (checkManifest manifest).ok then s.accept player manifest else s)) StoreAnswer.verdict u

end Unreliable

/-! ### Steps and runs -/

/-- A step of a play or of what goes on around it. -/
inductive PlayStep
  /-- The player types a line. -/
  | line (text : String) (now : TimeOfDay)
  /-- The request under way that has a number is carried out. -/
  | execute (index : Nat)
  /-- The waiting event that has a number passes all the others. -/
  | overtake (index : Nat)
  /-- The event that stands first is handled. -/
  | deliver (now : TimeOfDay)
  /-- Another client uses the store. -/
  | others (operation : StoreOperation)
  /-- From now on requests of these kinds fail. -/
  | refuse (requests : List StoreRequest)
  /-- An answer gets lost, and its event reports a failure instead. -/
  | lose (index : Nat) (request : SyncRequest) (error : StoreError)
  deriving DecidableEq

/-- Whether a step neither makes a request fail nor is a write to the player's container level. -/
def PlayStep.IsCalm (player : String) : PlayStep → Prop
  | .line _ _ | .execute _ | .overtake _ | .deliver _ => True
  | .others operation => operation.signalsFor player = []
  | .refuse _ | .lose _ _ _ => False

namespace Play

variable (player : String) (p : Play (Unreliable MemoryStore))

/-- The play after a step. -/
def advance : PlayStep → Play (Unreliable MemoryStore)
  | .line text now => (p.typeLine text now).2
  | .execute index => p.execute (.toMemory player) index
  | .overtake index =>
      match p.events[index]? with
      | none => p
      | some event => { p with events := event :: p.events.eraseIdx index }
  | .deliver now =>
      match p.deliver now with
      | none => p
      | some (_, _, q) => q
  | .others operation =>
      { p with store := ((Unreliable.store MemoryStore.store).perform operation p.store).2 }
  | .refuse requests => { p with store := { p.store with failing := requests } }
  | .lose index request error => { p with events := p.events.set index (.failed request error) }

/-- The play after a schedule. -/
def follow (steps : List PlayStep) : Play (Unreliable MemoryStore) :=
  steps.foldl (advance player) p

/-- The signals that a step gives. -/
def emits : PlayStep → List TaskSignal
  | .line text now => (p.level.handleLine text now).signals
  | _ => []

/-- The signals that a step brings into the player's container level of the store. -/
def writes : PlayStep → List TaskSignal
  | .execute index =>
      match p.inFlight[index]? with
      | none => []
      | some request =>
          if ((Connection.toMemory player).perform request p.store).1.isFailure then []
          else request.signals
  | .others operation =>
      match ((Unreliable.store MemoryStore.store).perform operation p.store).1 with
      | .ok _ => operation.signalsFor player
      | .error _ => []
  | _ => []

/-- The signals that a schedule gives. -/
def emitted : Play (Unreliable MemoryStore) → List PlayStep → List TaskSignal
  | _, [] => []
  | p, step :: rest => p.emits step ++ emitted (p.advance player step) rest

/-- The signals that a schedule brings into the player's container level of the store. -/
def written : Play (Unreliable MemoryStore) → List PlayStep → List TaskSignal
  | _, [] => []
  | p, step :: rest => p.writes player step ++ written (p.advance player step) rest

/-! ### What a step does -/

section
variable {σ : Type} {p : Play σ} {c : Connection (StateM σ)}

@[simp] theorem send_level (requests : List SyncRequest) : (p.send requests).level = p.level := by
  rw [send]
  split <;> rfl

@[simp] theorem send_store (requests : List SyncRequest) : (p.send requests).store = p.store := by
  rw [send]
  split <;> rfl

@[simp] theorem send_events (requests : List SyncRequest) :
    (p.send requests).events = p.events := by
  rw [send]
  split <;> rfl

theorem typeLine_level (text : String) (now : TimeOfDay) :
    (p.typeLine text now).2.level = (p.level.handleLine text now).level := by
  simp only [typeLine, send_level]

theorem typeLine_store (text : String) (now : TimeOfDay) :
    (p.typeLine text now).2.store = p.store := by
  simp only [typeLine, send_store]

theorem typeLine_events (text : String) (now : TimeOfDay) :
    (p.typeLine text now).2.events = p.events := by
  simp only [typeLine, send_events]

/-- A play with a store sends the signals of a line on their way. -/
theorem typeLine_online (h : p.online = true) (text : String) (now : TimeOfDay) :
    (p.typeLine text now).2 =
      { p with
        level := (p.level.handleLine text now).level
        inFlight := p.inFlight ++ (p.level.handleLine text now).signals.map .push } := by
  simp only [typeLine, send, h, if_true]

theorem execute_none {index : Nat} (h : p.inFlight[index]? = none) : p.execute c index = p := by
  rw [execute, take?, h]
  rfl

theorem execute_some {index : Nat} {request : SyncRequest}
    (h : p.inFlight[index]? = some request) :
    p.execute c index =
      { p with
        inFlight := p.inFlight.eraseIdx index
        events := p.events ++ [(c.perform request p.store).1]
        store := (c.perform request p.store).2 } := by
  rw [execute, take?, h]
  rfl

end

section
variable {player p}

theorem deliver_cons {event : SyncEvent} {rest : List SyncEvent} (now : TimeOfDay)
    (h : p.events = event :: rest) :
    p.advance player (.deliver now) =
      { p with level := (p.level.handleEvent event now).2, events := rest } := by
  simp only [advance, deliver, h]

theorem deliver_nil (now : TimeOfDay) (h : p.events = []) :
    p.advance player (.deliver now) = p := by
  simp only [advance, deliver, h]

end

theorem overtake_store (index : Nat) : (p.advance player (.overtake index)).store = p.store := by
  simp only [advance]
  split <;> rfl

theorem deliver_store (now : TimeOfDay) : (p.advance player (.deliver now)).store = p.store := by
  cases hevents : p.events with
  | nil => rw [deliver_nil now hevents]
  | cons event rest => rw [deliver_cons now hevents]

theorem execute_store_tasks (index : Nat) :
    (p.execute (.toMemory player) index).store.inner.tasks player .docker =
      p.store.inner.tasks player .docker ⊔ .ofSignals (p.writes player (.execute index)) := by
  rw [writes]
  cases hrequest : p.inFlight[index]? with
  | none =>
      rw [execute_none hrequest]
      exact (sup_bot_eq _).symm
  | some request =>
      rw [execute_some hrequest]
      dsimp only
      -- a push that failed writes nothing, though it has a signal
      rcases Connection.perform_outcome player p.store request with
        ⟨_, hfailure, _, hleaves⟩ | ⟨_, hsuccess, _, hleaves⟩
      · rw [if_pos hfailure, hleaves]
        exact (sup_bot_eq _).symm
      · rw [hsuccess, if_neg Bool.false_ne_true, hleaves]

theorem others_store_tasks (operation : StoreOperation) :
    (p.advance player (.others operation)).store.inner.tasks player .docker =
      p.store.inner.tasks player .docker ⊔
        .ofSignals (p.writes player (.others operation)) := by
  rw [advance, writes]
  dsimp only
  rcases p.store.perform_cases operation with ⟨_, e, hrefused⟩ | hanswered
  · rw [hrefused]
    exact (sup_bot_eq _).symm
  · rw [hanswered]
    exact MemoryStore.tasks_effect_docker ..

theorem advance_store_tasks (step : PlayStep) :
    (p.advance player step).store.inner.tasks player .docker =
      p.store.inner.tasks player .docker ⊔ .ofSignals (p.writes player step) := by
  cases step with
  | line text now =>
      rw [advance, typeLine_store]
      exact (sup_bot_eq _).symm
  | execute index => exact execute_store_tasks player p index
  | overtake index =>
      rw [overtake_store]
      exact (sup_bot_eq _).symm
  | deliver now =>
      rw [deliver_store]
      exact (sup_bot_eq _).symm
  | others operation => exact others_store_tasks player p operation
  | refuse requests => exact (sup_bot_eq _).symm
  | lose index request error => exact (sup_bot_eq _).symm

theorem emits_completed (step : PlayStep) :
    ∀ signal ∈ p.emits step, signal.completed = true := by
  cases step with
  | line text now => exact p.level.handleLine_signals_completed text now
  | execute | overtake | deliver | others | refuse | lose =>
      exact fun _ h => absurd h List.not_mem_nil

/-- The tracker keeps its flags through a step, and has the signals that the step gave. -/
theorem le_advance_tracker_tasks (step : PlayStep) :
    p.level.tracker.tasks ⊔ .ofSignals (p.emits step) ≤
      (p.advance player step).level.tracker.tasks := by
  have hquiet : p.level.tracker.tasks ⊔ .ofSignals [] ≤ p.level.tracker.tasks :=
    sup_le (le_refl _) bot_le
  cases step with
  | line text now =>
      rw [advance, typeLine_level, DockerLevel.handleLine_tasks]
      exact le_refl _
  | execute index =>
      rw [advance]
      cases hrequest : p.inFlight[index]? with
      | none =>
          rw [execute_none hrequest]
          exact hquiet
      | some request =>
          rw [execute_some hrequest]
          exact hquiet
  | overtake index =>
      simp only [advance]
      split <;> exact hquiet
  | deliver now =>
      cases hevents : p.events with
      | nil =>
          rw [deliver_nil now hevents]
          exact hquiet
      | cons event rest =>
          rw [deliver_cons now hevents]
          dsimp only
          rw [DockerLevel.handleEvent_tasks]
          exact hquiet.trans le_sup_left
  | others operation => exact hquiet
  | refuse requests => exact hquiet
  | lose index request error => exact hquiet

/-! ### What a schedule does -/

theorem emitted_completed (steps : List PlayStep) :
    ∀ signal ∈ p.emitted player steps, signal.completed = true := by
  induction steps generalizing p with
  | nil => exact fun _ h => absurd h List.not_mem_nil
  | cons step rest ih =>
      intro signal h
      rcases List.mem_append.1 h with hstep | hrest
      · exact emits_completed p step signal hstep
      · exact ih (p.advance player step) signal hrest

/-- The flags in the store after a schedule: nothing that was there or was written is lost. -/
theorem follow_store_tasks (steps : List PlayStep) :
    (p.follow player steps).store.inner.tasks player .docker =
      p.store.inner.tasks player .docker ⊔ .ofSignals (p.written player steps) := by
  induction steps generalizing p with
  | nil => exact (sup_bot_eq _).symm
  | cons step rest ih =>
      show ((p.advance player step).follow player rest).store.inner.tasks player .docker = _
      rw [ih, advance_store_tasks, written, TaskState.ofSignals_append, sup_assoc]

/-- The tracker keeps its flags through a schedule, and has the signals that were given. -/
theorem le_follow_tracker_tasks (steps : List PlayStep) :
    p.level.tracker.tasks ⊔ .ofSignals (p.emitted player steps) ≤
      (p.follow player steps).level.tracker.tasks := by
  induction steps generalizing p with
  | nil => exact sup_le (le_refl _) bot_le
  | cons step rest ih =>
      have hrest := ih (p := p.advance player step)
      rw [emitted, TaskState.ofSignals_append, ← sup_assoc]
      exact (sup_le_sup_right (le_advance_tracker_tasks player p step) _).trans hrest

end Play

end EscapeRoom
