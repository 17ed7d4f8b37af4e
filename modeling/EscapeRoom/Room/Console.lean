import EscapeRoom.Room.Play
import EscapeRoom.Text.Lines

/-!
# The player's console

The console shows the banner, takes lines until the input ends, and shows a frame and a prompt for
each.  A frame of an event starts on a new line, and an event that shows nothing leaves no trace.

* `Console.opening`, `Console.afterLine`, `Console.afterEvent`, `Console.closing` — what is written.
* `Console.step` — one step of the loop; the order of the steps is not determined by the input.
-/

namespace EscapeRoom

/-- What a player is asked with. -/
def prompt : String := "player@escape:~$ "

/-- The control sequence that clears the terminal. -/
def clearScreen : String := "\x1b[2J\x1b[H"

namespace Frame

def text (f : Frame) : String :=
  (if f.screen = .clear then clearScreen else "") ++
    Text.unlines (f.lines ++ f.completedTasks.map (fun task => "[done] " ++ taskLabel task) ++
      if f.celebrate then
        ["*** " ++ Level.docker.title ++ " complete! Next: escape check <manifest> ***"]
      else [])

end Frame

namespace Console

/-- What is written first. -/
def opening : String := Text.unlines banner ++ prompt

/-- What is written after a line. -/
def afterLine (frame : Frame) : String := frame.text ++ prompt

/-- What is written after an event. -/
def afterEvent (frame : Frame) : String :=
  if frame = .none then "" else "\n" ++ frame.text ++ prompt

/-- What is written when the input ends. -/
def closing : String := "\n"

end Console

/-- What can happen next at a console. -/
inductive ConsoleStep
  /-- A line was typed; a line that is no text ends the loop. -/
  | line (text : Option String) (now : TimeOfDay)
  /-- A request under way is carried out. -/
  | execute (index : Nat)
  /-- The event that has waited longest is handled. -/
  | deliver (now : TimeOfDay)
  /-- The input has ended. -/
  | finish
  deriving DecidableEq, Repr

/-- Whether the loop goes on. -/
inductive ConsoleStatus
  | running
  | finished
  /-- The input could not be read. -/
  | unreadable
  deriving DecidableEq, Repr

/-- A play with what has been written. -/
structure Console (σ : Type) where
  play : Play σ
  output : String
  status : ConsoleStatus

namespace Console

variable {σ : Type}

/-- The console before the first line. -/
def start (online : Bool) (store : σ) : Console σ :=
  ⟨(Play.new online store).start, opening, .running⟩

def write (s : Console σ) (text : String) : Console σ := { s with output := s.output ++ text }

/-- One step of the loop; nothing happens after its end. -/
def step (c : Option (Connection (StateM σ))) (s : Console σ) (next : ConsoleStep) : Console σ :=
  if s.status ≠ .running then s
  else
    match next with
    | .line none _ => { s with status := .unreadable }
    | .line (some line) now =>
        let (frame, play) := s.play.typeLine line now
        { s with play := play }.write (afterLine frame)
    | .execute index =>
        match c with
        | none => s
        | some c => { s with play := s.play.execute c index }
    | .deliver now =>
        match s.play.deliver now with
        | none => s
        | some (_, frame, play) => { s with play := play }.write (afterEvent frame)
    | .finish => { s with status := .finished }.write closing

/-- Carries out everything under way in its order and handles all events. -/
def settle (c : Option (Connection (StateM σ))) (now : TimeOfDay) (s : Console σ) : Console σ :=
  let s := s.play.inFlight.foldl (fun s _ => s.step c (.execute 0)) s
  s.play.events.foldl (fun s _ => s.step c (.deliver now)) s

end Console

end EscapeRoom
