import EscapeRoom.Proofs.TaskOrder

/-!
# The laws of merging

Flags reach a task state from the player, from the store and from several devices, in any order and
some of them more than once.  Nothing depends on that: a merged state knows the tasks of both states
and raises a flag that either of them raises, so merging is the join of a semilattice, and setting a
flag or building a state from a list are joins as well.  An unknown task and one that is known and
not done count the same for `isDone`, but they are different states.

* `OrderedMap.mem_keys` — keys as lookups.
* `TaskState.get?_merge`, `TaskState.mem_keys_merge` — a merged state, task by task.
* `TaskState.raises_iff` — when setting a flag is news.
* `TaskState.mem_keys_ofList`, `TaskState.isDone_ofList` — a state of a list, by its entries.
* `TaskState.states_form_semilattice` — the laws together.
-/

namespace EscapeRoom

theorem OrderedMap.mem_keys {ν : Type} {m : OrderedMap String ν} {key : String} :
    key ∈ m.keys ↔ (m.get? key).isSome = true := by
  rw [keys, List.mem_map, Option.isSome_iff_exists]
  constructor
  · rintro ⟨⟨k, v⟩, hmem, rfl⟩
    exact ⟨v, mem_entries.1 hmem⟩
  · rintro ⟨v, hget⟩
    exact ⟨(key, v), mem_entries.2 hget, rfl⟩

namespace TaskState

/-! ### One task of a state -/

section
variable (s t : TaskState) (task : String) (completed : Bool)

theorem get?_merge :
    (s.merge t).get? task = Option.merge (· || ·) (s.get? task) (t.get? task) := by
  have hflag : (s.merge t).get? task = s.flag task ⊔ t.flag task := s.flag_merge t task
  rw [hflag, flag, flag]
  cases s.get? task <;> cases t.get? task <;> rfl

theorem mem_keys_merge :
    task ∈ (s.merge t).flags.keys ↔ task ∈ s.flags.keys ∨ task ∈ t.flags.keys := by
  have hget : (s.merge t).flags.get? task = Option.merge _ _ _ := s.get?_merge t task
  rw [OrderedMap.mem_keys, OrderedMap.mem_keys, OrderedMap.mem_keys, hget, Option.isSome_merge,
    Bool.or_eq_true]
  rfl

theorem raises_iff :
    s.raises task completed = true ↔
      s.isDone task = false ∧ (s.set task completed).isDone task = true := by
  rw [raises, isDone_set, beq_self_eq_true, Bool.and_true]
  cases s.isDone task <;> simp

theorem ofList_single : ofList [(task, completed)] = ⟨.ofList [(task, completed)]⟩ := by
  show (⟨OrderedMap.empty.insert task (false || completed)⟩ : TaskState) = _
  rw [Bool.false_or]
  rfl

end

/-- A state is what is known in it and what is done. -/
theorem ext_known_done {s t : TaskState}
    (hknown : ∀ task, task ∈ s.flags.keys ↔ task ∈ t.flags.keys)
    (hdone : ∀ task, s.isDone task = t.isDone task) : s = t := by
  apply flag_injective
  funext task
  have hsome : (s.get? task).isSome = (t.get? task).isSome :=
    Bool.eq_iff_iff.2 (OrderedMap.mem_keys.symm.trans ((hknown task).trans OrderedMap.mem_keys))
  have hflag := hdone task
  rw [isDone, isDone] at hflag
  show s.get? task = t.get? task
  cases hs : s.get? task <;> cases ht : t.get? task <;> simp_all

/-! ### States of lists -/

theorem ofList_cons (e : String × Bool) (rest : List (String × Bool)) :
    ofList (e :: rest) = (ofList [e]).merge (ofList rest) := ofList_append [e] rest

section
variable {entries : List (String × Bool)} {task : String}

theorem mem_keys_ofList :
    task ∈ (ofList entries).flags.keys ↔ ∃ flag, (task, flag) ∈ entries := by
  induction entries with
  | nil => exact iff_of_false List.not_mem_nil fun ⟨_, hmem⟩ => List.not_mem_nil hmem
  | cons e rest ih =>
      have hone : task ∈ (ofList [e]).flags.keys ↔ task = e.1 := List.mem_singleton
      rw [ofList_cons, mem_keys_merge, ih, hone]
      simp only [List.mem_cons, Prod.ext_iff, exists_or, exists_and_left, exists_eq, and_true]

theorem isDone_ofList : (ofList entries).isDone task = true ↔ (task, true) ∈ entries := by
  induction entries with
  | nil => exact iff_of_false Bool.false_ne_true List.not_mem_nil
  | cons e rest ih =>
      have hone : (ofList [e]).isDone task = (e.2 && task == e.1) := isDone_set empty e.1 task e.2
      rw [ofList_cons, merge_eq_sup, isDone_sup, Bool.or_eq_true, ih, hone, Bool.and_eq_true,
        beq_iff_eq, List.mem_cons, Prod.ext_iff, and_comm]
      exact or_congr_left (and_congr_right' eq_comm)

/-- Neither order nor repetition matters. -/
theorem ofList_congr {others : List (String × Bool)} (h : ∀ e, e ∈ others ↔ e ∈ entries) :
    ofList others = ofList entries := by
  apply ext_known_done
  · intro task
    simp only [mem_keys_ofList, h]
  · intro task
    rw [Bool.eq_iff_iff, isDone_ofList, isDone_ofList, h]

end

/-- **Task states form a semilattice.**  Merging is commutative, associative and idempotent, as an
equality of whole states: a merged state knows exactly the tasks that one of the two knows, and the
flags of a task that both know are joined.  Setting a flag is merging with the state of that flag
alone, and is news when the task becomes done by it.  The state of a list of flags knows the tasks
of the list and has done those with a flag that is set, so it is the same in any order and with any
repetitions.  Tasks that are all done in one of two states are all done when they are merged. -/
theorem states_form_semilattice (a b c : TaskState) :
    a.merge b = b.merge a ∧
    (a.merge b).merge c = a.merge (b.merge c) ∧
    a.merge a = a ∧
    (∀ task,
      (task ∈ (a.merge b).flags.keys ↔ task ∈ a.flags.keys ∨ task ∈ b.flags.keys) ∧
      (a.merge b).get? task = Option.merge (· || ·) (a.get? task) (b.get? task)) ∧
    (∀ task completed,
      a.set task completed = a.merge ⟨.ofList [(task, completed)]⟩ ∧
      (a.raises task completed = true ↔
        a.isDone task = false ∧ (a.set task completed).isDone task = true)) ∧
    (∀ xs : List (String × Bool),
      (∀ task, (task ∈ (ofList xs).flags.keys ↔ ∃ flag, (task, flag) ∈ xs) ∧
        ((ofList xs).isDone task = true ↔ (task, true) ∈ xs)) ∧
      ∀ ys, (∀ e, e ∈ ys ↔ e ∈ xs) → ofList ys = ofList xs) ∧
    ∀ tasks, a.allDone tasks = true ∨ b.allDone tasks = true →
      (a.merge b).allDone tasks = true := by
  refine ⟨?_, ?_, ?_, ?_, ?_, ?_, ?_⟩
  · exact sup_comm a b
  · exact sup_assoc a b c
  · exact sup_idem a
  · exact fun task => ⟨a.mem_keys_merge b task, a.get?_merge b task⟩
  · intro task completed
    refine ⟨?_, a.raises_iff task completed⟩
    rw [← ofList_single, merge_eq_sup]
    exact a.set_eq_sup task completed
  · exact fun xs => ⟨fun task => ⟨mem_keys_ofList, isDone_ofList⟩, fun ys => ofList_congr⟩
  · rintro tasks (ha | hb)
    · exact allDone_mono (le_sup_left : a ≤ a ⊔ b) ha
    · exact allDone_mono (le_sup_right : b ≤ a ⊔ b) hb

/-- A task that is only known, a stale flag and a repeated one. -/
theorem semilattice_with_known_task :
    let pulled := ofList [(Task.pull, true), ("extra", false)]
    let logged := ofList [(Task.logs, true), (Task.pull, false)]
    (∀ e, e ∈ [("extra", false), (Task.pull, true), ("extra", false)] ↔
        e ∈ [(Task.pull, true), ("extra", false)]) ∧
      ofList [("extra", false), (Task.pull, true), ("extra", false)] = pulled ∧
      pulled.allDone [Task.pull] = true ∧
      (pulled.merge logged).allDone [Task.pull] = true ∧
      (pulled.merge logged).toList = [("extra", false), (Task.logs, true), (Task.pull, true)] := by
  intro pulled logged
  have hsame : ∀ e, e ∈ [("extra", false), (Task.pull, true), ("extra", false)] ↔
      e ∈ [(Task.pull, true), ("extra", false)] := by
    intro e
    grind
  have hpulled : pulled.allDone [Task.pull] = true := by decide
  obtain ⟨-, -, -, -, -, hlist, hdone⟩ := states_form_semilattice pulled logged empty
  exact ⟨hsame, (hlist _).2 _ hsame, hpulled, hdone _ (.inl hpulled), by decide⟩

end TaskState

end EscapeRoom
