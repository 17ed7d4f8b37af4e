import EscapeRoom.Proofs.Schedule
import EscapeRoom.Room.Console

/-!
# Runs of a console

The input fixes the lines and when it ends, and nothing fixes what happens between them: a line or
the end of the input may be taken before, between or after any requests and events.  A run is given
by the input and by a list of turns that says what the loop did next.

* `Text.typedInput`, `ConsoleTurn`, `ConsoleStep.schedule` — the lines of an input, the turns, and
  the steps that they make of the lines.
* `Console.follow`, `Console.run` — the console after some steps, and after some turns.
* `Console.step_line`, `Console.step_execute`, `Console.step_deliver`, … — what each step does.
* `ProgressStore.Responds` — a store none of whose requests fails, or all of them.
* `Connection.performAll` — carrying out requests one after the other.
-/

namespace EscapeRoom

/-- The lines of an input as texts.  What follows the last line feed is a line, unless it is
nothing. -/
def Text.typedInput (input : List UInt8) : List (Option String) :=
  let (ended, last) := typedLines input
  (ended.map withoutReturn ++ if last.isEmpty then [] else [last]).map typedText?

/-- An input need not end with a line feed. -/
example : Text.typedInput [0x6C, 0x73, 0x0D, 0x0A, 0x70, 0x73] = [some "ls", some "ps"] := by
  decide +kernel

/-- What the loop of a console does next. -/
inductive ConsoleTurn
  /-- It takes the next line, or the end of the input when there is none. -/
  | read (now : TimeOfDay)
  /-- A request under way is carried out meanwhile. -/
  | execute (index : Nat)
  /-- It handles the event that has waited longest. -/
  | deliver (now : TimeOfDay)
  deriving DecidableEq, Repr

/-- The steps that turns make of the lines of an input. -/
def ConsoleStep.schedule : List (Option String) → List ConsoleTurn → List ConsoleStep
  | _, [] => []
  | [], .read _ :: turns => .finish :: schedule [] turns
  | text :: lines, .read now :: turns => .line text now :: schedule lines turns
  | lines, .execute index :: turns => .execute index :: schedule lines turns
  | lines, .deliver now :: turns => .deliver now :: schedule lines turns

namespace ConsoleStep

variable (text : Option String) (lines : List (Option String)) (turns : List ConsoleTurn)

theorem schedule_end (now : TimeOfDay) :
    schedule [] (.read now :: turns) = .finish :: schedule [] turns := rfl

theorem schedule_line (now : TimeOfDay) :
    schedule (text :: lines) (.read now :: turns) = .line text now :: schedule lines turns := rfl

theorem schedule_execute (index : Nat) :
    schedule lines (.execute index :: turns) = .execute index :: schedule lines turns := by
  cases lines <;> rfl

theorem schedule_deliver (now : TimeOfDay) :
    schedule lines (.deliver now :: turns) = .deliver now :: schedule lines turns := by
  cases lines <;> rfl

end ConsoleStep

namespace Console

variable {σ : Type}

/-- The console after some steps. -/
def follow (c : Option (Connection (StateM σ))) (s : Console σ) (steps : List ConsoleStep) :
    Console σ :=
  steps.foldl (step c) s

theorem follow_cons (c : Option (Connection (StateM σ))) (s : Console σ) (next : ConsoleStep)
    (rest : List ConsoleStep) : s.follow c (next :: rest) = (s.step c next).follow c rest := rfl

/-- The console after some turns on an input; without a connection the player is offline. -/
def run (c : Option (Connection (StateM σ))) (store : σ) (input : List UInt8)
    (turns : List ConsoleTurn) : Console σ :=
  (start c.isSome store).follow c (ConsoleStep.schedule (Text.typedInput input) turns)

/-! ### Steps -/

section
variable {c : Option (Connection (StateM σ))} {s : Console σ}

/-- After the end nothing happens. -/
theorem step_of_ended (h : s.status ≠ .running) (next : ConsoleStep) : s.step c next = s :=
  if_pos h

theorem follow_of_ended (h : s.status ≠ .running) (steps : List ConsoleStep) :
    s.follow c steps = s := by
  induction steps with
  | nil => rfl
  | cons next rest ih =>
      rw [follow_cons, step_of_ended h, ih]

variable (h : s.status = .running)
include h

theorem step_unreadable (now : TimeOfDay) :
    s.step c (.line none now) = { s with status := .unreadable } :=
  if_neg (not_not_intro h)

theorem step_line (text : String) (now : TimeOfDay) :
    s.step c (.line (some text) now) =
      { s with
        play := (s.play.typeLine text now).2
        output := s.output ++ afterLine (s.play.level.handleLine text now).frame } :=
  if_neg (not_not_intro h)

theorem step_finish :
    s.step c .finish = { s with status := .finished, output := s.output ++ closing } :=
  if_neg (not_not_intro h)

theorem step_execute (d : Connection (StateM σ)) (index : Nat) :
    s.step (some d) (.execute index) = { s with play := s.play.execute d index } :=
  if_neg (not_not_intro h)

theorem step_execute_offline (index : Nat) : s.step none (.execute index) = s :=
  if_neg (not_not_intro h)

theorem step_deliver_nil (now : TimeOfDay) (hevents : s.play.events = []) :
    s.step c (.deliver now) = s := by
  rw [step, if_neg (not_not_intro h)]
  simp only [Play.deliver, hevents]

theorem step_deliver (now : TimeOfDay) {event : SyncEvent} {rest : List SyncEvent}
    (hevents : s.play.events = event :: rest) :
    s.step c (.deliver now) =
      { s with
        play :=
          { s.play with level := (s.play.level.handleEvent event now).2, events := rest }
        output := s.output ++ afterEvent (s.play.level.handleEvent event now).1 } := by
  rw [step, if_neg (not_not_intro h)]
  simp only [Play.deliver, hevents]
  rfl

end

end Console

/-! ### Stores that always answer, or never -/

/-- Whether a store, in the states `P` that no request leaves, fulfils every request (`ok`) or
refuses every one. -/
structure ProgressStore.Responds {σ : Type} (store : ProgressStore (StateM σ)) (ok : Bool)
    (P : σ → Prop) : Prop where
  register : ∀ player s, P s →
    (store.register player s).1.isOk = ok ∧ P (store.register player s).2
  fetch : ∀ player level s, P s →
    (store.fetch player level s).1.isOk = ok ∧ P (store.fetch player level s).2
  update : ∀ player level signal s, P s →
    (store.update player level signal s).1.isOk = ok ∧ P (store.update player level signal s).2
  validate : ∀ player manifest s, P s →
    (store.validate player manifest s).1.isOk = ok ∧ P (store.validate player manifest s).2

namespace MemoryStore

theorem answer_responds {α : Type} {f : MemoryStore → α × MemoryStore} {s : MemoryStore}
    (hf : (f s).2.failing = s.failing) {ok : Bool} (h : s.failing = !ok) :
    (answer f s).1.isOk = ok ∧ (answer f s).2.failing = !ok := by
  unfold answer
  cases ok with
  | true =>
      rw [if_neg (by simp [h])]
      exact ⟨rfl, hf.trans h⟩
  | false =>
      have hfailing : s.failing = true := h
      rw [if_pos hfailing]
      exact ⟨rfl, h⟩

/-- A store in memory fulfils every request, or refuses every one while it fails. -/
theorem responds (ok : Bool) : store.Responds ok fun s => s.failing = !ok where
  register _ _ h := answer_responds rfl h
  fetch _ _ _ h := answer_responds rfl h
  update _ _ _ _ h := answer_responds rfl h
  validate player manifest s h := by
    refine answer_responds ?_ h
    exact s.failing_effect (.validate player manifest)

end MemoryStore

namespace Connection

variable {σ : Type} {c : Connection (StateM σ)} {ok : Bool} {P : σ → Prop}

/-- With such a store, a request ends in success or in failure, and the store stays such. -/
theorem perform_responds (h : c.store.Responds ok P) (request : SyncRequest) {s : σ} (hs : P s) :
    (c.perform request s).1.isFailure = !ok ∧ P (c.perform request s).2 := by
  cases request with
  | load =>
      have hbetween := (h.register c.player s hs).2
      have hfetch := h.fetch c.player .docker _ hbetween
      show (c.load s).1.isFailure = !ok ∧ P (c.load s).2
      rw [load_eq]
      generalize c.store.fetch c.player .docker _ = answered at hfetch ⊢
      rcases answered with ⟨answer, after⟩
      cases answer with
      | ok progress => exact ⟨congrArg Bool.not hfetch.1, hfetch.2⟩
      | error e => exact ⟨congrArg Bool.not hfetch.1, hfetch.2⟩
  | push signal =>
      have hupdate := h.update c.player .docker signal s hs
      show (c.push signal s).1.isFailure = !ok ∧ P (c.push signal s).2
      rw [push_eq]
      generalize c.store.update c.player .docker signal s = answered at hupdate ⊢
      rcases answered with ⟨answer, after⟩
      cases answer with
      | ok progress => exact ⟨congrArg Bool.not hupdate.1, hupdate.2⟩
      | error e => exact ⟨congrArg Bool.not hupdate.1, hupdate.2⟩

/-- Carries out requests one after the other. -/
def performAll (c : Connection (StateM σ)) : List SyncRequest → StateM σ (List SyncEvent)
  | [] => pure []
  | request :: rest => do
      let event ← c.perform request
      let events ← c.performAll rest
      return event :: events

theorem performAll_cons (request : SyncRequest) (rest : List SyncRequest) (s : σ) :
    c.performAll (request :: rest) s =
      ((c.perform request s).1 :: (c.performAll rest (c.perform request s).2).1,
        (c.performAll rest (c.perform request s).2).2) := rfl

theorem performAll_responds (h : c.store.Responds ok P) (requests : List SyncRequest) {s : σ}
    (hs : P s) : ∀ event ∈ (c.performAll requests s).1, event.isFailure = !ok := by
  induction requests generalizing s with
  | nil => exact fun _ hmem => absurd hmem List.not_mem_nil
  | cons request rest ih =>
      obtain ⟨hfailure, hafter⟩ := perform_responds h request hs
      rw [performAll_cons]
      exact List.forall_mem_cons.2 ⟨hfailure, ih hafter⟩

end Connection

end EscapeRoom
