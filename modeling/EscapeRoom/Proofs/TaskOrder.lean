import EscapeRoom.Task.State
import Mathlib.Order.BooleanAlgebra.Defs
import Mathlib.Order.WithBot

/-!
# Task states as a join semilattice

A task state says of each task that it is unknown, known or done, in this order.  Setting a flag and
merging two states are joins in that order, so what a state holds after any number of changes is the
join of everything that was ever put into it.

* `TaskState.flag` — what a state says of a task, as an element of the three-element chain.
* `TaskState.flag_set`, `TaskState.flag_setAll`, `TaskState.flag_merge` — the changes, task by task.
* The instance `SemilatticeSup TaskState`, in which `merge` is the join.
* `TaskState.setAll_eq_sup`, `TaskState.set_eq_sup` — the other changes as joins.
-/

namespace EscapeRoom.TaskState

/-- The join of flags, from the lattice of truth values that computes. -/
instance : SemilatticeSup (WithBot Bool) :=
  @WithBot.semilatticeSup Bool Bool.instDistribLattice.toLattice.toSemilatticeSup

/-- What a state says of a task: nothing, or its flag. -/
def flag (s : TaskState) (task : String) : WithBot Bool := s.get? task

/-- What a list of entries says of a task: nothing, or whether one of its entries is set. -/
def flagIn (task : String) : List (String × Bool) → WithBot Bool
  | [] => ⊥
  | e :: rest => (if task = e.1 then (e.2 : WithBot Bool) else ⊥) ⊔ flagIn task rest

theorem flag_injective : Function.Injective flag := by
  intro s t h
  have hflags : s.flags = t.flags := OrderedMap.ext_get? fun task => congrFun h task
  cases s
  cases t
  exact congrArg mk hflags

@[simp] theorem flag_empty (task : String) : empty.flag task = ⊥ := rfl

theorem isDone_eq_unbotD (s : TaskState) (task : String) :
    s.isDone task = (s.flag task).unbotD false := by
  rw [isDone, flag]
  cases s.get? task <;> rfl

theorem isDone_iff_flag {s : TaskState} {task : String} :
    s.isDone task = true ↔ s.flag task = ((true : Bool) : WithBot Bool) := by
  show (s.get? task).getD false = true ↔ s.get? task = some true
  cases s.get? task <;> simp

theorem flag_set (s : TaskState) (task q : String) (completed : Bool) :
    (s.set task completed).flag q =
      s.flag q ⊔ (if q = task then (completed : WithBot Bool) else ⊥) := by
  show (s.set task completed).get? q = _
  rw [get?_set]
  by_cases h : q = task
  · subst h
    rw [if_pos rfl, if_pos rfl, isDone, flag]
    cases s.get? q with
    | none => rfl
    | some b => exact WithBot.coe_sup b completed
  · rw [if_neg h, if_neg h, sup_bot_eq]
    rfl

theorem flag_setAll (s : TaskState) (entries : List (String × Bool)) (q : String) :
    (s.setAll entries).flag q = s.flag q ⊔ flagIn q entries := by
  induction entries generalizing s with
  | nil => exact (sup_bot_eq _).symm
  | cons e rest ih =>
      show ((s.set e.1 e.2).setAll rest).flag q = _
      rw [ih, flag_set, sup_assoc]
      rfl

/-- The entries of a sorted list say what its first entry with the key says. -/
theorem flagIn_eq_findEntry {q : String} {entries : List (String × Bool)}
    (h : entries.Pairwise fun a b => a.1 < b.1) :
    flagIn q entries = OrderedMap.findEntry q entries := by
  induction entries with
  | nil => rfl
  | cons e rest ih =>
      obtain ⟨hlt, hrest⟩ := List.pairwise_cons.1 h
      rw [flagIn, ih hrest]
      obtain ⟨k, b⟩ := e
      by_cases hk : q = k
      · subst hk
        rw [OrderedMap.findEntry_eq_none_of_lt hlt]
        simp only [OrderedMap.findEntry, if_pos]
        exact sup_bot_eq _
      · simp only [OrderedMap.findEntry, if_neg hk]
        exact bot_sup_eq _

theorem flagIn_toList (s : TaskState) (q : String) : flagIn q s.toList = s.flag q :=
  flagIn_eq_findEntry s.flags.sorted

theorem flag_merge (s t : TaskState) (q : String) : (s.merge t).flag q = s.flag q ⊔ t.flag q := by
  rw [merge, flag_setAll, ← flagIn_toList t]
  rfl

/-! ### The order -/

instance : Max TaskState := ⟨merge⟩

/-- A state lies below another that knows and has done at least as much. -/
instance : LE TaskState := ⟨fun s t => ∀ task, s.flag task ≤ t.flag task⟩

instance : LT TaskState := ⟨fun s t => s ≤ t ∧ ¬ t ≤ s⟩

instance : SemilatticeSup TaskState :=
  flag_injective.semilatticeSup flag Iff.rfl
    (by
      intro s t
      exact lt_iff_le_not_ge)
    fun s t => funext (flag_merge s t)

theorem merge_eq_sup (s t : TaskState) : s.merge t = s ⊔ t := rfl

@[simp] theorem flag_sup (s t : TaskState) (q : String) : (s ⊔ t).flag q = s.flag q ⊔ t.flag q :=
  flag_merge s t q

instance : OrderBot TaskState where
  bot := empty
  bot_le _ := fun _ => bot_le

/-- What is done in a state is done in every state above it. -/
theorem isDone_mono {s t : TaskState} (h : s ≤ t) {task : String} (hs : s.isDone task = true) :
    t.isDone task = true := by
  rw [isDone_iff_flag] at hs ⊢
  have hle : ((true : Bool) : WithBot Bool) ≤ t.flag task := hs ▸ h task
  refine le_antisymm ?_ hle
  cases t.flag task with
  | bot => exact bot_le
  | coe b => exact WithBot.coe_le_coe.2 (Bool.le_true b)

theorem allDone_mono {s t : TaskState} (h : s ≤ t) {tasks : List String}
    (hs : s.allDone tasks = true) : t.allDone tasks = true := by
  rw [allDone, List.all_eq_true] at hs ⊢
  exact fun task hmem => isDone_mono h (hs task hmem)

/-! ### Changes as joins -/

theorem flag_ofList (entries : List (String × Bool)) (q : String) :
    (ofList entries).flag q = flagIn q entries := by
  rw [ofList, flag_setAll, flag_empty, bot_sup_eq]

theorem setAll_eq_sup (s : TaskState) (entries : List (String × Bool)) :
    s.setAll entries = s ⊔ ofList entries :=
  flag_injective (funext fun q => by rw [flag_setAll, flag_sup, flag_ofList])

theorem set_eq_sup (s : TaskState) (task : String) (completed : Bool) :
    s.set task completed = s ⊔ ofList [(task, completed)] :=
  setAll_eq_sup s [(task, completed)]

theorem ofList_append (xs ys : List (String × Bool)) :
    ofList (xs ++ ys) = ofList xs ⊔ ofList ys := by
  rw [← setAll_eq_sup, ofList, setAll, List.foldl_append]
  rfl

theorem isDone_sup (s t : TaskState) (q : String) :
    (s ⊔ t).isDone q = (s.isDone q || t.isDone q) := by
  simp only [isDone_eq_unbotD, flag_sup]
  cases s.flag q with
  | bot => rw [bot_sup_eq, WithBot.unbotD_bot, Bool.false_or]
  | coe a =>
      cases t.flag q with
      | bot => rw [sup_bot_eq, WithBot.unbotD_bot, Bool.or_false]
      | coe b => rfl

/-! ### Signals -/

/-- What a list of signals says about tasks. -/
def ofSignals (signals : List TaskSignal) : TaskState :=
  ofList (signals.map fun signal => (signal.task, signal.completed))

@[simp] theorem ofSignals_nil : ofSignals [] = ⊥ := rfl

theorem ofSignals_append (xs ys : List TaskSignal) :
    ofSignals (xs ++ ys) = ofSignals xs ⊔ ofSignals ys := by
  rw [ofSignals, List.map_append, ofList_append]
  rfl

theorem ofSignals_cons (signal : TaskSignal) (rest : List TaskSignal) :
    ofSignals (signal :: rest) = ofSignals [signal] ⊔ ofSignals rest :=
  ofSignals_append [signal] rest

theorem set_eq_sup_ofSignals (s : TaskState) (signal : TaskSignal) :
    s.set signal.task signal.completed = s ⊔ ofSignals [signal] :=
  set_eq_sup s signal.task signal.completed

theorem isDone_ofSignals (signals : List TaskSignal) (q : String) :
    (ofSignals signals).isDone q = signals.any fun s => s.completed && q == s.task := by
  induction signals with
  | nil => rfl
  | cons s rest ih =>
      have hone : (ofSignals [s]).isDone q = (s.completed && q == s.task) := isDone_set ..
      rw [ofSignals_cons, isDone_sup, ih, List.any_cons, hone]

/-- A state above some signals has done what one of them says. -/
theorem isDone_of_mem {signals : List TaskSignal} {t : TaskState} (h : ofSignals signals ≤ t)
    {signal : TaskSignal} (hmem : signal ∈ signals) (hcompleted : signal.completed = true) :
    t.isDone signal.task = true := by
  refine isDone_mono h ?_
  rw [isDone_ofSignals, List.any_eq_true]
  exact ⟨signal, hmem, by simp [hcompleted]⟩

end EscapeRoom.TaskState
