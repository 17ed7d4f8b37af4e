import EscapeRoom.Proofs.ConsoleRun
import EscapeRoom.Store.Remote

/-!
# An outage cannot be seen

Every request to a store that is out ends in a failure, and a failure changes neither the level nor
the text on the console.  So what a player has before them depends on the lines and on their times
alone, as it does without any store.

* `Console.View`, `Console.view` — what a player has before them.
* `Console.IsCutOff` — nothing but failures can come from the store.
* `Console.view_read`, `Console.IsCutOff.execute`, `Console.IsCutOff.deliver` — one step.
* `Console.view_follow` — what goes on in the background can be left out.
* `Console.outage_is_invisible` — a play during an outage and a play offline.
-/

namespace EscapeRoom

/-- Whether a turn takes from the input; the others belong to the background. -/
def ConsoleTurn.isRead : ConsoleTurn → Bool
  | .read _ => true
  | .execute _ | .deliver _ => false

/-- Whether a step takes from the input. -/
def ConsoleStep.isInput : ConsoleStep → Bool
  | .line _ _ | .finish => true
  | .execute _ | .deliver _ => false

/-- A server that nobody reaches is a store that refuses everything. -/
theorem Remote.responds_unreachable {σ : Type} (base : String) :
    (store (.unreachable : Transport (StateM σ)) base).Responds false fun _ => True where
  register _ _ _ := ⟨rfl, trivial⟩
  fetch _ _ _ _ := ⟨rfl, trivial⟩
  update _ _ _ _ _ := ⟨rfl, trivial⟩
  validate _ _ _ _ := ⟨rfl, trivial⟩

namespace Console

variable {σ τ : Type}

/-- What a player has before them. -/
structure View where
  level : DockerLevel
  output : String
  status : ConsoleStatus

def view (s : Console σ) : View := ⟨s.play.level, s.output, s.status⟩

/-- Whether the store, if there is one, refuses every request, and only failures wait. -/
structure IsCutOff (c : Option (Connection (StateM σ))) (P : σ → Prop) (s : Console σ) : Prop where
  refuses : ∀ d, c = some d → d.store.Responds false P
  store : P s.play.store
  events : ∀ event ∈ s.play.events, event.isFailure = true

/-! ### Lines and the end of the input -/

/-- Where the same is to be seen, a line or the end of the input leads to the same, whatever the
stores. -/
theorem view_read {c : Option (Connection (StateM σ))} {d : Option (Connection (StateM τ))}
    {s : Console σ} {t : Console τ} (h : s.view = t.view) {next : ConsoleStep}
    (hnext : next.isInput = true) : (s.step c next).view = (t.step d next).view := by
  obtain ⟨hlevel, houtput, hstatus⟩ := View.mk.inj h
  by_cases hrunning : s.status = .running
  · have hrunning' : t.status = .running := hstatus ▸ hrunning
    cases next with
    | finish =>
        rw [step_finish hrunning, step_finish hrunning']
        simp only [view, hlevel, houtput]
    | line text now =>
        cases text with
        | none =>
            rw [step_unreadable hrunning, step_unreadable hrunning']
            simp only [view, hlevel, houtput]
        | some text =>
            rw [step_line hrunning, step_line hrunning']
            simp only [view, Play.typeLine_level, hlevel, houtput, hstatus]
    | execute | deliver => exact absurd hnext Bool.false_ne_true
  · rw [step_of_ended hrunning, step_of_ended (hstatus ▸ hrunning)]
    exact h

namespace IsCutOff

variable {c : Option (Connection (StateM σ))} {P : σ → Prop} {s : Console σ}

theorem read (h : IsCutOff c P s) {next : ConsoleStep} (hnext : next.isInput = true) :
    IsCutOff c P (s.step c next) := by
  by_cases hrunning : s.status = .running
  · cases next with
    | finish =>
        rw [step_finish hrunning]
        exact ⟨h.refuses, h.store, h.events⟩
    | line text now =>
        cases text with
        | none =>
            rw [step_unreadable hrunning]
            exact ⟨h.refuses, h.store, h.events⟩
        | some text =>
            rw [step_line hrunning]
            refine ⟨h.refuses, ?_, ?_⟩
            · dsimp only
              rw [Play.typeLine_store]
              exact h.store
            · dsimp only
              rw [Play.typeLine_events]
              exact h.events
    | execute | deliver => exact absurd hnext Bool.false_ne_true
  · rw [step_of_ended hrunning]
    exact h

/-! ### The background -/

/-- A request that is carried out adds one more failure to the waiting events. -/
theorem execute (h : IsCutOff c P s) (index : Nat) :
    IsCutOff c P (s.step c (.execute index)) ∧ (s.step c (.execute index)).view = s.view := by
  by_cases hrunning : s.status = .running
  · cases c with
    | none =>
        rw [step_execute_offline hrunning]
        exact ⟨h, rfl⟩
    | some d =>
        rw [step_execute hrunning]
        cases hrequest : s.play.inFlight[index]? with
        | none =>
            rw [Play.execute_none hrequest]
            exact ⟨h, rfl⟩
        | some request =>
            rw [Play.execute_some hrequest]
            obtain ⟨hfailure, hstore⟩ :=
              Connection.perform_responds (h.refuses d rfl) request h.store
            refine ⟨⟨h.refuses, hstore, ?_⟩, rfl⟩
            exact List.forall_mem_append.2 ⟨h.events, List.forall_mem_singleton.2 hfailure⟩
  · rw [step_of_ended hrunning]
    exact ⟨h, rfl⟩

/-- A failure is handled without a trace. -/
theorem deliver (h : IsCutOff c P s) (now : TimeOfDay) :
    IsCutOff c P (s.step c (.deliver now)) ∧ (s.step c (.deliver now)).view = s.view := by
  by_cases hrunning : s.status = .running
  · cases hevents : s.play.events with
    | nil =>
        rw [step_deliver_nil hrunning now hevents]
        exact ⟨h, rfl⟩
    | cons event rest =>
        rw [step_deliver hrunning now hevents]
        obtain ⟨hfailure, hrest⟩ := List.forall_mem_cons.1 (hevents ▸ h.events)
        refine ⟨⟨h.refuses, h.store, hrest⟩, ?_⟩
        cases event with
        | loaded | updated => exact absurd hfailure Bool.false_ne_true
        | failed request error =>
            show (⟨s.play.level, s.output ++ "", s.status⟩ : View) = s.view
            rw [String.append_empty]
            rfl
  · rw [step_of_ended hrunning]
    exact ⟨h, rfl⟩

end IsCutOff

/-! ### Runs -/

/-- Two consoles that can get nothing but failures show the same after the same reads, though one
has a background and the other has none. -/
theorem view_follow {c : Option (Connection (StateM σ))} {d : Option (Connection (StateM τ))}
    {P : σ → Prop} {Q : τ → Prop} {s : Console σ} {t : Console τ} (hs : IsCutOff c P s)
    (ht : IsCutOff d Q t) (hview : s.view = t.view) (lines : List (Option String))
    (turns : List ConsoleTurn) :
    (s.follow c (ConsoleStep.schedule lines turns)).view =
      (t.follow d (ConsoleStep.schedule lines (turns.filter ConsoleTurn.isRead))).view := by
  induction turns generalizing lines s t with
  | nil => exact hview
  | cons turn turns ih =>
      cases turn with
      | read now =>
          rw [List.filter_cons_of_pos rfl]
          cases lines with
          | nil =>
              rw [ConsoleStep.schedule_end, ConsoleStep.schedule_end, follow_cons, follow_cons]
              exact ih (hs.read rfl) (ht.read rfl) (view_read hview rfl) []
          | cons text lines =>
              rw [ConsoleStep.schedule_line, ConsoleStep.schedule_line, follow_cons, follow_cons]
              exact ih (hs.read rfl) (ht.read rfl) (view_read hview rfl) lines
      | execute index =>
          obtain ⟨hnext, hsame⟩ := hs.execute index
          rw [List.filter_cons_of_neg Bool.false_ne_true, ConsoleStep.schedule_execute, follow_cons]
          exact ih hnext ht (hsame.trans hview) lines
      | deliver now =>
          obtain ⟨hnext, hsame⟩ := hs.deliver now
          rw [List.filter_cons_of_neg Bool.false_ne_true, ConsoleStep.schedule_deliver, follow_cons]
          exact ih hnext ht (hsame.trans hview) lines

theorem isCutOff_start {c : Option (Connection (StateM σ))} {P : σ → Prop}
    (hrefuses : ∀ d, c = some d → d.store.Responds false P) {store : σ} (hstore : P store) :
    IsCutOff c P (start c.isSome store) := by
  refine ⟨hrefuses, ?_, ?_⟩
  · show P ((Play.new c.isSome store).send [.load]).store
    rw [Play.send_store]
    exact hstore
  · show ∀ event ∈ ((Play.new c.isSome store).send [.load]).events, event.isFailure = true
    rw [Play.send_events]
    exact fun _ hmem => absurd hmem List.not_mem_nil

theorem view_start (online : Bool) (store : σ) :
    (start online store).view = ⟨.new, opening, .running⟩ := by
  show (⟨((Play.new online store).send [.load]).level, opening, .running⟩ : View) = _
  rw [Play.send_level]
  rfl

/-- **An outage is invisible.**  A player types an input, and every request to the store is refused.
However requests and events fall between the lines, the player reads the very text that they would
read offline, if the lines come at the same times.  Session, flags and completion are the same. -/
theorem outage_is_invisible {c : Connection (StateM σ)} {P : σ → Prop}
    (hrefuses : c.store.Responds false P) (store : σ) (hstore : P store) (input : List UInt8)
    {turns offlineTurns : List ConsoleTurn}
    (hclock : turns.filter ConsoleTurn.isRead = offlineTurns.filter ConsoleTurn.isRead) :
    let outage := run (some c) store input turns
    let offline := run none () input offlineTurns
    outage.output = offline.output ∧ outage.status = offline.status ∧
      outage.play.level.session = offline.play.level.session ∧
      outage.play.level.tracker.tasks = offline.play.level.tracker.tasks ∧
      outage.play.level.isComplete = offline.play.level.isComplete := by
  intro outage offline
  have honline : IsCutOff (some c) P (start true store) :=
    isCutOff_start (c := some c) (fun d hd => Option.some.inj hd ▸ hrefuses) hstore
  have hoffline : IsCutOff none (fun _ => True) (start false ()) :=
    isCutOff_start (c := none) (fun _ hd => nomatch hd) trivial
  have hstart : (start true store).view = (start false ()).view :=
    (view_start true store).trans (view_start false ()).symm
  have hview : outage.view = offline.view := by
    show ((start true store).follow (some c) _).view = ((start false ()).follow none _).view
    rw [view_follow honline hoffline hstart, hclock, ← view_follow hoffline hoffline rfl]
  obtain ⟨hlevel, houtput, hstatus⟩ := View.mk.inj hview
  exact ⟨houtput, hstatus, congrArg _ hlevel, congrArg (·.tracker.tasks) hlevel,
    congrArg _ hlevel⟩

/-- Registering fails before the first line, and an update fails between two lines. -/
theorem outage_of_unreachable_server :
    let early : TimeOfDay := ⟨12, 0, 0⟩
    let late : TimeOfDay := ⟨12, 0, 7⟩
    let c : Connection (StateM Unit) :=
      ⟨Remote.store .unreachable "http://localhost:5000", "player-1"⟩
    let input := Text.Utf8.encode "docker pull nginx\ndocker ps".toList
    let turns : List ConsoleTurn :=
      [.execute 0, .deliver early, .read early, .execute 0, .deliver late, .read late, .read late]
    let offlineTurns : List ConsoleTurn := [.read early, .read late, .read late]
    let outage := run (some c) () input turns
    let offline := run none () input offlineTurns
    c.store.Responds false (fun _ => True) ∧
      turns.filter ConsoleTurn.isRead = offlineTurns.filter ConsoleTurn.isRead ∧
      outage.output = offline.output ∧ outage.status = .finished ∧
      outage.play.level.session = offline.play.level.session ∧
      outage.play.level.tracker.tasks = offline.play.level.tracker.tasks ∧
      outage.play.level.tracker.tasks.isDone Task.pull = true ∧
      outage.play.inFlight = [] ∧ outage.play.events = [] := by
  intro early late c input turns offlineTurns
  have hrefuses : c.store.Responds false (fun _ => True) := Remote.responds_unreachable _
  have hclock : turns.filter ConsoleTurn.isRead = offlineTurns.filter ConsoleTurn.isRead := rfl
  have hsame := outage_is_invisible hrefuses () trivial input hclock
  dsimp only at hsame ⊢
  obtain ⟨houtput, -, hsession, htasks, -⟩ := hsame
  refine ⟨hrefuses, hclock, houtput, ?_, hsession, htasks, ?_, ?_, ?_⟩
  all_goals decide +kernel

end Console

end EscapeRoom
