import EscapeRoom.Store.Memory

/-!
# Stores of which some requests fail

Any store can be made to fail: requests of the chosen kinds are refused and change nothing, and all
others are passed on.

* `Unreliable` — a store's state with the kinds of request that fail.
* `Unreliable.store` — the requests.
* `Unreliable.refuses` — which requests a store in memory refuses, be it that it is down itself.
* `Unreliable.attempt_refused`, `Unreliable.attempt_answered` — what comes of a request to it.
-/

namespace EscapeRoom

/-- The state of a store and the requests that fail. -/
structure Unreliable (σ : Type) where
  inner : σ
  failing : List StoreRequest
  deriving DecidableEq

namespace Unreliable

variable {σ : Type}

/-- Passes a request on, unless requests of its kind fail. -/
def attempt {α : Type} (request : StoreRequest) (act : StateM σ (Except StoreError α)) :
    StateM (Unreliable σ) (Except StoreError α) := fun s =>
  if s.failing.contains request then (.error (.refused request), s)
  else
    let (a, t) := act s.inner
    (a, { s with inner := t })

/-- The requests to a store of which some fail. -/
def store (inner : ProgressStore (StateM σ)) : ProgressStore (StateM (Unreliable σ)) where
  register player := attempt .register (inner.register player)
  fetch player level := attempt .fetch (inner.fetch player level)
  update player level signal := attempt .update (inner.update player level signal)
  validate player manifest := attempt .validate (inner.validate player manifest)

/-! ### A store in memory -/

/-- Whether a store in memory refuses a kind of request. -/
def refuses (u : Unreliable MemoryStore) (request : StoreRequest) : Bool :=
  u.failing.contains request || u.inner.failing

variable {α : Type} {u : Unreliable MemoryStore} {request : StoreRequest}

/-- A refused request changes nothing. -/
theorem attempt_refused (h : u.refuses request = true) (f : MemoryStore → α × MemoryStore) :
    ∃ e, attempt request (MemoryStore.answer f) u = (.error e, u) := by
  rw [attempt]
  by_cases hrefused : u.failing.contains request = true
  · exact ⟨_, if_pos hrefused⟩
  · have hfailing : u.inner.failing = true := (Bool.or_eq_true_iff.1 h).resolve_left hrefused
    rw [if_neg hrefused, MemoryStore.answer, hfailing]
    exact ⟨.unavailable, rfl⟩

theorem attempt_answered (h : u.refuses request = false) (f : MemoryStore → α × MemoryStore) :
    attempt request (MemoryStore.answer f) u =
      (.ok (f u.inner).1, { u with inner := (f u.inner).2 }) := by
  obtain ⟨hadmitted, hanswers⟩ := Bool.or_eq_false_iff.1 h
  rw [attempt, hadmitted, MemoryStore.answer, hanswers]
  rfl

end Unreliable

end EscapeRoom
