import EscapeRoom.Room.DockerLevel
import EscapeRoom.Store.Basic

/-!
# Playing with a store in the background

Requests to the progress store run in the background and are not repeated.  Each ends in an event,
and events are handled one at a time, between the lines.  Any number of requests may be under way,
and they may end in any order, so a play is a state that three kinds of step change.

* `SyncRequest`, `SyncEvent` — what runs in the background, and how it ends.
* `Connection.perform` — carrying out a request.
* `Play.typeLine`, `Play.execute`, `Play.deliver` — the steps.
* `Play.take?`, `Play.enqueue` — the two halves of carrying out a request.
-/

namespace EscapeRoom

/-- A request to the store that runs in the background. -/
inductive SyncRequest
  /-- Makes the player known and fetches earlier progress. -/
  | load
  /-- Reports a signal. -/
  | push (signal : TaskSignal)
  deriving DecidableEq, Repr

/-- The name of a request in reports of its failure. -/
def SyncRequest.name : SyncRequest → String
  | load => "load progress"
  | push _ => "update task"

/-- How a request ended. -/
inductive SyncEvent
  | loaded (progress : Progress)
  | updated (progress : Progress)
  | failed (request : SyncRequest) (error : StoreError)
  deriving DecidableEq

/-- The level after an event, and what is shown; a failed request shows and changes nothing. -/
def DockerLevel.handleEvent (l : DockerLevel) (event : SyncEvent) (now : TimeOfDay) :
    Frame × DockerLevel :=
  match event with
  | .loaded progress => l.handleReport progress.tasks now
  | .updated progress => l.handleReport progress.tasks now
  | .failed _ _ => (.none, l)

/-- A store and the player who uses it. -/
structure Connection (m : Type → Type) where
  store : ProgressStore m
  player : String

namespace Connection

variable {m : Type → Type} [Monad m]

/-- Makes the player known, whether that works or not, and fetches the progress. -/
def load (c : Connection m) : m SyncEvent := do
  let _ ← c.store.register c.player
  match ← c.store.fetch c.player .docker with
  | .ok progress => return .loaded progress
  | .error e => return .failed .load e

/-- Reports a signal. -/
def push (c : Connection m) (signal : TaskSignal) : m SyncEvent := do
  match ← c.store.update c.player .docker signal with
  | .ok progress => return .updated progress
  | .error e => return .failed (.push signal) e

/-- Carries out a request. -/
def perform (c : Connection m) : SyncRequest → m SyncEvent
  | .load => c.load
  | .push signal => c.push signal

end Connection

/-- A level with its requests under way, the events that wait, and the state of the store. -/
structure Play (σ : Type) where
  level : DockerLevel
  /-- Whether there is a store to send requests to. -/
  online : Bool
  inFlight : List SyncRequest
  events : List SyncEvent
  store : σ

namespace Play

variable {σ : Type}

/-- The state before anything happens. -/
def new (online : Bool) (store : σ) : Play σ := ⟨.new, online, [], [], store⟩

/-- Sends requests on their way, if there is a store. -/
def send (p : Play σ) (requests : List SyncRequest) : Play σ :=
  if p.online then { p with inFlight := p.inFlight ++ requests } else p

/-- Asks for earlier progress. -/
def start (p : Play σ) : Play σ := p.send [.load]

/-- Takes a line. -/
def typeLine (p : Play σ) (line : String) (now : TimeOfDay) : Frame × Play σ :=
  let outcome := p.level.handleLine line now
  (outcome.frame, { p with level := outcome.level }.send (outcome.signals.map .push))

/-- Takes out the request under way that has a number. -/
def take? (p : Play σ) (index : Nat) : Option (SyncRequest × Play σ) :=
  p.inFlight[index]?.map fun request =>
    (request, { p with inFlight := p.inFlight.eraseIdx index })

/-- Lets an event wait behind the others. -/
def enqueue (p : Play σ) (event : SyncEvent) : Play σ := { p with events := p.events ++ [event] }

/-- Carries out the request under way that has a number, and lets its event wait. -/
def execute (p : Play σ) (c : Connection (StateM σ)) (index : Nat) : Play σ :=
  match p.take? index with
  | none => p
  | some (request, p) =>
      let (event, store) := c.perform request p.store
      { p with store := store }.enqueue event

/-- Handles the event that has waited longest. -/
def deliver (p : Play σ) (now : TimeOfDay) : Option (SyncEvent × Frame × Play σ) :=
  match p.events with
  | [] => none
  | event :: events =>
      let (frame, level) := p.level.handleEvent event now
      some (event, frame, { p with level := level, events := events })

/-- Carries out all requests under way, in their order. -/
def executeAll (p : Play σ) (c : Connection (StateM σ)) : Play σ :=
  p.inFlight.foldl (fun p _ => p.execute c 0) p

end Play

end EscapeRoom
