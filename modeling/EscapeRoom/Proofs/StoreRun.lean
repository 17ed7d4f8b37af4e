import EscapeRoom.Proofs.TaskOrder
import EscapeRoom.Store.Unreliable

/-!
# Runs of a progress store

A store is used through requests, so whatever it holds has come of a list of them.  In a store in
memory every request joins something to the flags of a player, and a record lists the required tasks
from the beginning.

* `StoreOperation`, `ProgressStore.perform`, `ProgressStore.performAll` — requests as data, and
  carrying them out.
* `MemoryStore.perform_eq` — what a store in memory that does not fail answers.
* `MemoryStore.tasks_modifyRecord`, `MemoryStore.tasks_le_tasks_effect` — the flags after a request.
* `MemoryStore.required_le_tasks_after` — records list the required tasks.
-/

namespace EscapeRoom

/-- A request to a progress store. -/
inductive StoreOperation
  | register (player : String)
  | fetch (player : String) (level : Level)
  | update (player : String) (level : Level) (signal : TaskSignal)
  | validate (player manifest : String)
  deriving DecidableEq, Repr

/-- The player on whose behalf a request is made. -/
def StoreOperation.player : StoreOperation → String
  | register player => player
  | fetch player _ => player
  | update player _ _ => player
  | validate player _ => player

/-- What a store answers. -/
inductive StoreAnswer
  | registered
  | progress (progress : Progress)
  | verdict (verdict : Verdict)
  deriving DecidableEq

namespace ProgressStore

variable {σ : Type}

/-- Carries out a request. -/
def perform (store : ProgressStore (StateM σ)) :
    StoreOperation → StateM σ (Except StoreError StoreAnswer)
  | .register player => do return (← store.register player).map fun _ => .registered
  | .fetch player level => do return (← store.fetch player level).map .progress
  | .update player level signal => do return (← store.update player level signal).map .progress
  | .validate player manifest => do return (← store.validate player manifest).map .verdict

/-- Carries out requests one after the other. -/
def performAll (store : ProgressStore (StateM σ)) :
    List StoreOperation → StateM σ (List (Except StoreError StoreAnswer))
  | [] => pure []
  | operation :: rest => do
      let answer ← store.perform operation
      let answers ← store.performAll rest
      return answer :: answers

theorem performAll_cons (store : ProgressStore (StateM σ)) (operation : StoreOperation)
    (rest : List StoreOperation) (s : σ) :
    store.performAll (operation :: rest) s =
      ((store.perform operation s).1 :: (store.performAll rest (store.perform operation s).2).1,
        (store.performAll rest (store.perform operation s).2).2) := rfl

end ProgressStore

namespace MemoryStore

/-! ### Records -/

theorem recordOf_modifyRecord (s : MemoryStore) (player q : String) (level m : Level)
    (f : LevelRecord → LevelRecord) :
    (s.modifyRecord player level f).recordOf q m =
      if m = level ∧ q = player then f (s.recordOf player level) else s.recordOf q m := by
  unfold recordOf modifyRecord
  simp only [PerLevel.get_set]
  by_cases hm : m = level
  · subst hm
    rw [if_pos rfl, OrderedMap.get?_insert]
    by_cases hq : q = player
    · rw [if_pos hq, if_pos ⟨rfl, hq⟩]
      rfl
    · rw [if_neg hq, if_neg fun h => hq h.2]
  · rw [if_neg hm, if_neg fun h => hm h.1]

/-- The store after a request that it does not refuse. -/
def effect (s : MemoryStore) : StoreOperation → MemoryStore
  | .register player => s.register player
  | .fetch _ _ => s
  | .update player level signal => s.update player level signal
  | .validate player manifest =>
      if (checkManifest manifest).ok then s.accept player manifest else s

/-- The answer to a request that is not refused. -/
def answerTo (s : MemoryStore) : StoreOperation → StoreAnswer
  | .register _ => .registered
  | .fetch player level => .progress (s.progress player level)
  | .update player level signal => .progress ((s.update player level signal).progress player level)
  | .validate _ manifest => .verdict (checkManifest manifest)

theorem perform_eq {s : MemoryStore} (h : s.failing = false) (operation : StoreOperation) :
    store.perform operation s = (.ok (s.answerTo operation), s.effect operation) := by
  cases operation <;>
    simp only [ProgressStore.perform, store, answer, h, bind, StateT.bind, Bool.false_eq_true,
      if_false] <;> rfl

theorem failing_effect (s : MemoryStore) (operation : StoreOperation) :
    (s.effect operation).failing = s.failing := by
  cases operation with
  | register | fetch | update => rfl
  | validate player manifest =>
      simp only [effect]
      split <;> rfl

/-! ### Flags -/

section
variable (s : MemoryStore) (player q : String) (level m : Level)

/-- A change that joins something to the flags of a record. -/
theorem tasks_modifyRecord {f : LevelRecord → LevelRecord} {added : TaskState}
    (h : ∀ r, (f r).tasks = r.tasks ⊔ added) :
    (s.modifyRecord player level f).tasks q m =
      s.tasks q m ⊔ if m = level ∧ q = player then added else ⊥ := by
  rw [tasks, recordOf_modifyRecord]
  by_cases hm : m = level ∧ q = player
  · rw [if_pos hm, if_pos hm, h, hm.1, hm.2]
    rfl
  · rw [if_neg hm, if_neg hm, sup_bot_eq]
    rfl

theorem tasks_update (signal : TaskSignal) :
    (s.update player level signal).tasks q m =
      s.tasks q m ⊔ if m = level ∧ q = player then .ofSignals [signal] else ⊥ :=
  tasks_modifyRecord _ player q level m fun r => TaskState.set_eq_sup_ofSignals r.tasks signal

theorem tasks_accept (manifest : String) :
    (s.accept player manifest).tasks q m =
      s.tasks q m ⊔ if m = .manifest ∧ q = player then .ofSignals [.done Task.validManifest]
        else ⊥ :=
  tasks_modifyRecord _ player q .manifest m fun r =>
    TaskState.set_eq_sup_ofSignals r.tasks (.done Task.validManifest)

theorem tasks_seed (flags : List (String × Bool)) :
    (s.seed player level flags).tasks q m =
      s.tasks q m ⊔ if m = level ∧ q = player then .ofList flags else ⊥ :=
  tasks_modifyRecord _ player q level m fun r => TaskState.setAll_eq_sup r.tasks flags

theorem tasks_le_tasks_effect (operation : StoreOperation) :
    s.tasks q m ≤ (s.effect operation).tasks q m := by
  cases operation with
  | register | fetch => exact le_refl _
  | update player level signal =>
      rw [effect, tasks_update]
      exact le_sup_left
  | validate player manifest =>
      simp only [effect]
      split
      · rw [tasks_accept]
        exact le_sup_left
      · exact le_refl _

end

/-! ### Histories -/

/-- The store that some requests have made of a new one. -/
def after (history : List StoreOperation) : MemoryStore := (store.performAll history new).2

theorem performAll_snd {s : MemoryStore} (h : s.failing = false) (history : List StoreOperation) :
    (store.performAll history s).2 = history.foldl effect s := by
  induction history generalizing s with
  | nil => rfl
  | cons operation rest ih =>
      rw [ProgressStore.performAll_cons, perform_eq h]
      exact ih ((failing_effect s operation).trans h)

/-- What holds of a new store and is kept by every request holds after every history. -/
theorem after_induction {P : MemoryStore → Prop} (start : P new)
    (step : ∀ s operation, P s → P (effect s operation)) (history : List StoreOperation) :
    P (after history) := by
  -- the induction is over the effects alone; answers do not matter here
  have hrun : ∀ s, P s → P (history.foldl effect s) := by
    induction history with
    | nil => exact fun _ hs => hs
    | cons operation rest ih => exact fun s hs => ih (s.effect operation) (step s operation hs)
  rw [after, performAll_snd rfl]
  exact hrun new start

theorem failing_after (history : List StoreOperation) : (after history).failing = false :=
  after_induction (P := fun s => s.failing = false) rfl
    (fun s operation h => (failing_effect s operation).trans h) history

/-- Every record lists the required tasks of its level. -/
theorem required_le_tasks_after (history : List StoreOperation) (player : String) (level : Level) :
    .forLevel level ≤ (after history).tasks player level := by
  refine after_induction (P := fun s => .forLevel level ≤ s.tasks player level) ?_ ?_ history
  · cases level <;> exact le_refl _
  · exact fun s operation h => h.trans (tasks_le_tasks_effect s player level operation)

end MemoryStore

end EscapeRoom
