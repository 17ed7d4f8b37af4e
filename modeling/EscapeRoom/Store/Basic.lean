import EscapeRoom.Manifest.Rubric
import EscapeRoom.Task.State

/-!
# Progress stores

A progress store keeps the flags of every player and grades manifests.  Flags are merged, so a
request may arrive late or twice.  Any request may fail, and a store runs in a monad of its own:
states for stores in memory, input and output for a server elsewhere.

* `ProgressStore` — the four requests.
* `StoreError` — why a request failed.
* `StoreError.message` — the text of an error.
-/

namespace EscapeRoom

/-- The requests that a progress store answers. -/
inductive StoreRequest
  | register
  | fetch
  | update
  | validate
  deriving DecidableEq, Repr

def StoreRequest.name : StoreRequest → String
  | register => "register"
  | fetch => "fetch"
  | update => "update"
  | validate => "validate"

/-- Why a progress store did not do what it was asked for. -/
inductive StoreError
  /-- The store is out of order. -/
  | unavailable
  /-- Requests of this kind are made to fail. -/
  | refused (request : StoreRequest)
  /-- No good answer came to a request with this method and address. -/
  | unanswered (method url : String)
  /-- The answer cannot be read. -/
  | undecodable (answer : String)
  /-- The store does not accept the player. -/
  | rejected
  deriving DecidableEq, Repr

/-- The text of an error. -/
def StoreError.message : StoreError → String
  | unavailable => "progress store unavailable"
  | refused request => "scripted " ++ request.name ++ " failure"
  | unanswered method url => method ++ " " ++ url
  | undecodable answer => "decode " ++ answer ++ " response"
  | rejected => "progress store rejected player id"

/-- What can be asked of a progress store. -/
structure ProgressStore (m : Type → Type) where
  /-- Makes a player known. -/
  register : String → m (Except StoreError Unit)
  /-- The progress of a player in a level. -/
  fetch : String → Level → m (Except StoreError Progress)
  /-- Raises a flag, and reports the progress after that. -/
  update : String → Level → TaskSignal → m (Except StoreError Progress)
  /-- Grades a manifest; one that passes is kept and finishes the level. -/
  validate : String → String → m (Except StoreError Verdict)

end EscapeRoom
