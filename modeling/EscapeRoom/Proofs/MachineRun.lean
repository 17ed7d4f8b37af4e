/-!
# Runs of a machine

A machine takes one input after the other, answers it and goes on in its next state.  Three things
are true of all machines.  What is only overwritten is in the end what was written last.  A
condition that is never undone comes about once at most, and is told of once at most.  And inputs
that bring a machine to a state of which the other inputs cannot tell the difference may be left out
of a run.

* `answers`, `transcript`, `lastState` — what is answered along a run, and where it ends.
* `keeps_last_write` — runs that keep what was written last.
* `TellsOnset`, `TellsOnset.countP_answers` — answers that tell when a condition comes about.
* `entriesAt` — the entries of a list at chosen positions.
* `Unnoticed`, `Unnoticed.run` — inputs that may be left out.
-/

namespace EscapeRoom

variable {σ α β : Type}

/-- The answers of a machine along a run. -/
def answers (step : σ → α → β × σ) : σ → List α → List β
  | _, [] => []
  | s, a :: rest => (step s a).1 :: answers step (step s a).2 rest

/-- The inputs of a run, each with its answer. -/
def transcript (step : σ → α → β × σ) (s : σ) (inputs : List α) : List (α × β) :=
  inputs.zip (answers step s inputs)

theorem transcript_cons (step : σ → α → β × σ) (s : σ) (a : α) (rest : List α) :
    transcript step s (a :: rest) = (a, (step s a).1) :: transcript step (step s a).2 rest := rfl

/-- The state of a machine after a run. -/
def lastState (step : σ → α → β × σ) (s : σ) (inputs : List α) : σ :=
  inputs.foldl (fun s a => (step s a).2) s

/-! ### Values that are overwritten -/

/-- What is kept along a run is what was written last.  `P` holds all along. -/
theorem keeps_last_write {step : σ → α → σ} (kept : σ → Option β)
    (written : α → Option β) {P : σ → Prop} (hP : ∀ s a, P s → P (step s a))
    (hstep : ∀ s a, P s → kept (step s a) = (written a).or (kept s)) (run : List α) {s : σ}
    (hs : P s) : kept (run.foldl step s) = (run.filterMap written).getLast?.or (kept s) := by
  induction run generalizing s with
  | nil => rfl
  | cons a rest ih =>
      rw [List.foldl_cons, ih (hP s a hs), hstep s a hs, List.filterMap_cons]
      cases written a with
      | none => rfl
      | some b =>
          dsimp only
          rw [Option.some_or, List.getLast?_cons]
          cases (rest.filterMap written).getLast? <;> rfl

/-! ### Conditions that are never undone -/

/-- A condition is never undone, and an answer tells whether it came about with its input.  `P`
holds all along. -/
structure TellsOnset (step : σ → α → β × σ) (P : σ → Prop) (holds : σ → Bool) (tells : β → Bool) :
    Prop where
  keeps : ∀ {s} a, P s → P (step s a).2
  stays : ∀ {s} a, P s → holds s = true → holds (step s a).2 = true
  tells : ∀ {s} a, P s → tells (step s a).1 = (!holds s && holds (step s a).2)

namespace TellsOnset

variable {step : σ → α → β × σ} {P : σ → Prop} {holds : σ → Bool} {tells : β → Bool}
  (h : TellsOnset step P holds tells)
include h

theorem keeps_run {s : σ} (hs : P s) (inputs : List α) : P (lastState step s inputs) := by
  induction inputs generalizing s with
  | nil => exact hs
  | cons a rest ih => exact ih (h.keeps a hs)

theorem stays_run {s : σ} (hs : P s) (hholds : holds s = true) (inputs : List α) :
    holds (lastState step s inputs) = true := by
  induction inputs generalizing s with
  | nil => exact hholds
  | cons a rest ih => exact ih (h.keeps a hs) (h.stays a hs hholds)

/-- One answer of a run tells of the condition if the run brings it about, and none if not. -/
theorem countP_answers {s : σ} (hs : P s) (inputs : List α) :
    (answers step s inputs).countP tells =
      if !holds s && holds (lastState step s inputs) then 1 else 0 := by
  induction inputs generalizing s with
  | nil =>
      show 0 = if !holds s && holds s then 1 else 0
      rw [Bool.not_and_self]
      rfl
  | cons a rest ih =>
      have hstays : holds (step s a).2 = true → holds (lastState step (step s a).2 rest) = true :=
        fun hafter => h.stays_run (h.keeps a hs) hafter rest
      show ((step s a).1 :: answers step (step s a).2 rest).countP tells =
        if !holds s && holds (lastState step (step s a).2 rest) then 1 else 0
      rw [List.countP_cons, ih (h.keeps a hs), h.tells a hs]
      -- it held before the input, came about with it, or has not come about after it
      cases hbefore : holds s with
      | true => simp [h.stays a hs hbefore]
      | false =>
          cases hafter : holds (step s a).2 with
          | true => simp [hstays hafter]
          | false => simp

end TellsOnset

/-! ### Inputs that may be left out -/

/-- The entries of a list at chosen positions, counted from zero. -/
def entriesAt (chosen : Nat → Bool) : List α → List α
  | [] => []
  | x :: xs =>
      let rest := entriesAt (fun i => chosen (i + 1)) xs
      if chosen 0 then x :: rest else rest

/-- States in the relation `R` cannot be told apart by the inputs of `shown`, however a run goes on,
and an input of `dropped` leads to such a state. -/
structure Unnoticed (step : σ → α → β × σ) (R : σ → σ → Prop) (dropped : α → Prop)
    (shown : α → Bool) : Prop where
  skip : ∀ {s t a}, R s t → dropped a → R (step s a).2 t
  keep : ∀ {s t} a, R s t → R (step s a).2 (step t a).2
  answer : ∀ {s t a}, R s t → shown a = true → (step s a).1 = (step t a).1

/-- Some inputs are left out of a run: the others are answered as before as far as they are shown,
and the states in the end cannot be told apart. -/
theorem Unnoticed.run {step : σ → α → β × σ} {R : σ → σ → Prop} {dropped : α → Prop}
    {shown : α → Bool} (h : Unnoticed step R dropped shown) {kept : Nat → Bool} {inputs : List α}
    (hdropped : ∀ a ∈ entriesAt (fun i => !kept i) inputs, dropped a) {s t : σ} (hst : R s t) :
    (entriesAt kept (transcript step s inputs)).filter (fun e => shown e.1) =
        (transcript step t (entriesAt kept inputs)).filter (fun e => shown e.1) ∧
      R (lastState step s inputs) (lastState step t (entriesAt kept inputs)) := by
  induction inputs generalizing kept s t with
  | nil => exact ⟨rfl, hst⟩
  | cons a rest ih =>
      rw [entriesAt] at hdropped
      rw [transcript_cons, entriesAt, entriesAt]
      by_cases hkept : kept 0 = true
      · simp only [hkept, Bool.not_true, Bool.false_eq_true, if_false] at hdropped
        obtain ⟨htranscript, hlast⟩ := ih hdropped (h.keep a hst)
        simp only [hkept, if_true]
        refine ⟨?_, hlast⟩
        rw [transcript_cons, List.filter_cons, List.filter_cons, htranscript]
        by_cases hshown : shown a = true
        · rw [h.answer hst hshown]
        · simp only [hshown, Bool.false_eq_true, if_false]
      · simp only [hkept, Bool.not_false, if_true, List.forall_mem_cons] at hdropped
        simp only [hkept, Bool.false_eq_true, if_false]
        exact ih hdropped.2 (h.skip hst hdropped.1)

end EscapeRoom
