import EscapeRoom.Proofs.SavedManifest

/-!
# The order of changes does not matter

Flags are only raised, players only added, and a record holds one manifest.  So changes commute as
long as they keep the same manifest for a player, and a change that is made twice is made once: a
database depends on which changes were made, and not on their order or how often.

* `foldl_eq_of_mem_iff` — the general fact about folds.
* `OrderedMap.adjust` — the change of one value of a map, of which changes of records are made up.
* `LevelRecord.add`, `Change.apply_cases` — what a change does to a record.
* `Database.changes_converge` — the databases after the same changes.
-/

namespace EscapeRoom

/-! ### Folds that forget order and repetition -/

section
variable {α β : Type} {f : β → α → β} {p : α → Prop}
  (hcomm : ∀ x y, p x → p y → ∀ b, f (f b x) y = f (f b y) x)
include hcomm

theorem foldl_eq_of_perm {xs ys : List α} (h : xs.Perm ys) (hxs : ∀ x ∈ xs, p x) (b : β) :
    xs.foldl f b = ys.foldl f b := by
  apply h.foldl_eq'
  intro x hx y hy
  exact hcomm x y (hxs x hx) (hxs y hy)

variable (hidem : ∀ x, p x → ∀ b, f (f b x) x = f b x)
include hidem

/-- What has been taken once changes nothing when it is taken again. -/
theorem foldl_absorb {xs : List α} (hxs : ∀ x ∈ xs, p x) {x : α} (hx : x ∈ xs) (b : β) :
    f (xs.foldl f b) x = xs.foldl f b := by
  obtain ⟨front, rest, rfl⟩ := List.append_of_mem hx
  have hmoved : (front ++ x :: rest).Perm (front ++ rest ++ [x]) :=
    List.perm_middle.trans (List.perm_append_singleton x (front ++ rest)).symm
  have hlast : (front ++ x :: rest).foldl f b = f ((front ++ rest).foldl f b) x := by
    rw [foldl_eq_of_perm hcomm hmoved hxs, List.foldl_append]
    rfl
  rw [hlast]
  exact hidem x (hxs x hx) _

theorem foldl_absorb_all {xs ys : List α} (hxs : ∀ x ∈ xs, p x) (hys : ∀ y ∈ ys, y ∈ xs) (b : β) :
    ys.foldl f (xs.foldl f b) = xs.foldl f b := by
  induction ys with
  | nil => rfl
  | cons y ys ih =>
      obtain ⟨hy, hrest⟩ := List.forall_mem_cons.1 hys
      rw [List.foldl_cons, foldl_absorb hcomm hidem hxs hy, ih hrest]

/-- Lists with the same elements have the same fold. -/
theorem foldl_eq_of_mem_iff {xs ys : List α} (hxs : ∀ x ∈ xs, p x)
    (hsame : ∀ x, x ∈ xs ↔ x ∈ ys) (b : β) : xs.foldl f b = ys.foldl f b := by
  have hys : ∀ y ∈ ys, p y := by
    intro y hy
    exact hxs y ((hsame y).2 hy)
  have hboth : ∀ x ∈ xs ++ ys, p x := by
    intro x hx
    rcases List.mem_append.1 hx with hleft | hright
    · exact hxs x hleft
    · exact hys x hright
  calc xs.foldl f b
      = ys.foldl f (xs.foldl f b) :=
        (foldl_absorb_all hcomm hidem hxs (fun y hy => (hsame y).2 hy) b).symm
    _ = (xs ++ ys).foldl f b := List.foldl_append.symm
    _ = (ys ++ xs).foldl f b := foldl_eq_of_perm hcomm List.perm_append_comm hboth b
    _ = xs.foldl f (ys.foldl f b) := List.foldl_append
    _ = ys.foldl f b := foldl_absorb_all hcomm hidem hys (fun x hx => (hsame x).1 hx) b

end

/-! ### One value of a map -/

namespace OrderedMap

section
variable {κ ν : Type} [LT κ] [DecidableLT κ] [DecidableEq κ] [LE κ] [Std.IsLinearOrder κ]
  [Std.LawfulOrderLT κ]

/-- Changes the value under a key, from an initial one if there is none. -/
def adjust (m : OrderedMap κ ν) (key : κ) (initial : ν) (f : ν → ν) : OrderedMap κ ν :=
  m.insert key (f ((m.get? key).getD initial))

variable (m : OrderedMap κ ν) {key other : κ} {initial : ν} {f g : ν → ν}

theorem get?_adjust (q : κ) :
    (m.adjust key initial f).get? q =
      if q = key then some (f ((m.get? key).getD initial)) else m.get? q :=
  get?_insert ..

theorem adjust_idem (hf : ∀ v, f (f v) = f v) :
    (m.adjust key initial f).adjust key initial f = m.adjust key initial f := by
  apply ext_get?
  intro q
  rw [get?_adjust, get?_adjust, if_pos rfl, Option.getD_some, hf, get?_adjust]
  split <;> rfl

/-- Changes commute unless they meet at one key and do not commute there. -/
theorem adjust_comm (hfg : key = other → ∀ v, f (g v) = g (f v)) :
    (m.adjust key initial f).adjust other initial g =
      (m.adjust other initial g).adjust key initial f := by
  apply ext_get?
  intro q
  by_cases hkeys : key = other
  · subst hkeys
    simp only [get?_adjust, if_true, Option.getD_some, hfg rfl]
    split <;> rfl
  · simp only [get?_adjust, if_neg hkeys, if_neg (Ne.symm hkeys)]
    by_cases hkey : q = key
    · subst hkey
      rw [if_neg hkeys, if_pos rfl, if_pos rfl]
    · rw [if_neg hkey, if_neg hkey]

end

end OrderedMap

/-! ### What a change does to a record -/

/-- A record with further flags, and with another manifest if there is one. -/
def LevelRecord.add (r : LevelRecord) (tasks : TaskState) (manifest : Option String) :
    LevelRecord :=
  ⟨r.tasks ⊔ tasks, manifest.or r.manifest⟩

namespace LevelRecord

variable (r : LevelRecord) (tasks : TaskState) (manifest : Option String)

theorem add_idem : (r.add tasks manifest).add tasks manifest = r.add tasks manifest := by
  have htasks : r.tasks ⊔ tasks ⊔ tasks = r.tasks ⊔ tasks := by rw [sup_assoc, sup_idem]
  have hmanifest : manifest.or (manifest.or r.manifest) = manifest.or r.manifest := by
    cases manifest <;> rfl
  rw [add, add, htasks, hmanifest]

/-- Additions commute when they agree on the manifest. -/
theorem add_comm {manifest second : Option String} (more : TaskState)
    (h : ∀ text other, manifest = some text → second = some other → text = other) :
    (r.add tasks manifest).add more second = (r.add more second).add tasks manifest := by
  have htasks : r.tasks ⊔ tasks ⊔ more = r.tasks ⊔ more ⊔ tasks := sup_right_comm ..
  have hmanifest : second.or (manifest.or r.manifest) = manifest.or (second.or r.manifest) := by
    cases hfirst : manifest with
    | none => rfl
    | some text =>
        cases hsecond : second with
        | none => rfl
        | some other => rw [h text other hfirst hsecond]
  rw [add, add, add, add, htasks, hmanifest]

end LevelRecord

namespace Database

variable (db : Database) {player q : String} {level m : Level} {f g : LevelRecord → LevelRecord}

theorem modifyRecord_eq_adjust :
    db.modifyRecord player level f =
      { db with
        records := db.records.adjust player .empty fun levels =>
          levels.adjust level.number .empty f } := rfl

theorem modifyRecord_idem (hf : ∀ r, f (f r) = f r) :
    (db.modifyRecord player level f).modifyRecord player level f =
      db.modifyRecord player level f := by
  simp only [modifyRecord_eq_adjust]
  rw [OrderedMap.adjust_idem]
  intro levels
  exact levels.adjust_idem hf

theorem modifyRecord_comm (hfg : player = q → level = m → ∀ r, f (g r) = g (f r)) :
    (db.modifyRecord player level f).modifyRecord q m g =
      (db.modifyRecord q m g).modifyRecord player level f := by
  simp only [modifyRecord_eq_adjust]
  rw [OrderedMap.adjust_comm]
  intro hplayer levels
  apply levels.adjust_comm
  intro hnumber r
  exact (hfg hplayer (Level.number_injective hnumber.symm) r).symm

theorem register_idem : (db.register player).register player = db.register player := by
  have hmem : player ∈ db.players.insert player := OrderedSet.mem_insert.2 (.inl rfl)
  simp only [register, OrderedSet.insert_of_mem hmem]

theorem register_comm :
    (db.register player).register q = (db.register q).register player := by
  have hplayers : (db.players.insert player).insert q = (db.players.insert q).insert player := by
    apply OrderedSet.ext_mem
    intro x
    simp only [OrderedSet.mem_insert]
    exact or_left_comm
  simp only [register, hplayers]

theorem update_eq_add (signal : TaskSignal) :
    db.update player level signal =
      db.modifyRecord player level fun r => r.add (.ofSignals [signal]) none := by
  have hadd : ∀ r : LevelRecord,
      { r with tasks := r.tasks.set signal.task signal.completed } =
        r.add (.ofSignals [signal]) none := by
    intro r
    rw [TaskState.set_eq_sup_ofSignals]
    rfl
  rw [update, funext hadd]

theorem recordManifest_eq_add (text : String) :
    db.recordManifest player text =
      db.modifyRecord player .manifest fun r =>
        r.add (.ofSignals [.done Task.validManifest]) (some text) := by
  have hadd : ∀ r : LevelRecord,
      (⟨r.tasks.set Task.validManifest true, some text⟩ : LevelRecord) =
        r.add (.ofSignals [.done Task.validManifest]) (some text) := by
    intro r
    rw [LevelRecord.add, ← TaskState.set_eq_sup_ofSignals]
    rfl
  rw [recordManifest, funext hadd]

end Database

/-! ### Changes -/

namespace Change

/-- A change registers a player or adds to a record, and only one that keeps a manifest adds one. -/
theorem apply_cases (change : Change) :
    (∃ player, ∀ db, change.apply db = db.register player) ∨
      ∃ player level tasks manifest,
        (∀ db, change.apply db = db.modifyRecord player level fun r => r.add tasks manifest) ∧
        ∀ text, manifest = some text → change = .manifest player text := by
  cases change with
  | registration player => exact .inl ⟨player, fun _ => rfl⟩
  | flag player level signal =>
      refine .inr ⟨player, level, .ofSignals [signal], none, ?_, ?_⟩
      · intro db
        exact db.update_eq_add signal
      · intro text h
        cases h
  | manifest player text =>
      refine .inr ⟨player, .manifest, .ofSignals [.done Task.validManifest], some text, ?_, ?_⟩
      · intro db
        exact db.recordManifest_eq_add text
      · intro other h
        rw [Option.some.inj h]

theorem apply_idem (change : Change) (db : Database) :
    change.apply (change.apply db) = change.apply db := by
  rcases change.apply_cases with ⟨player, happly⟩ | ⟨player, level, tasks, manifest, happly, -⟩
  · rw [happly, happly, Database.register_idem]
  · rw [happly, happly, Database.modifyRecord_idem]
    intro r
    exact r.add_idem tasks manifest

/-- Changes commute unless they keep different manifests for one player. -/
theorem apply_comm {c d : Change}
    (h : ∀ player text other, c = .manifest player text → d = .manifest player other → text = other)
    (db : Database) : d.apply (c.apply db) = c.apply (d.apply db) := by
  rcases c.apply_cases with ⟨player, hc⟩ | ⟨player, level, tasks, text, hc, htext⟩
  · rcases d.apply_cases with ⟨q, hd⟩ | ⟨q, m, more, other, hd, -⟩
    · rw [hc, hd, hc, hd, Database.register_comm]
    · rw [hc, hd, hc, hd]
      rfl
  · rcases d.apply_cases with ⟨q, hd⟩ | ⟨q, m, more, other, hd, hother⟩
    · rw [hc, hd, hc, hd]
      rfl
    · rw [hc, hd, hc, hd, Database.modifyRecord_comm]
      rintro rfl - r
      apply r.add_comm
      intro last first hlast hfirst
      exact (h player first last (htext first hfirst) (hother last hlast)).symm

end Change

namespace Database

/-- The database after some changes. -/
def runChanges (db : Database) (changes : List Change) : Database := changes.foldl Change.apply db

theorem runChanges_append (db : Database) (earlier later : List Change) :
    db.runChanges (earlier ++ later) = (db.runChanges earlier).runChanges later :=
  List.foldl_append

/-! ### What is reported stays done -/

theorem isDone_progress (db : Database) (player : String) (level : Level) (task : String) :
    (db.progress player level).tasks.isDone task =
      ((TaskState.forLevel level).isDone task || (db.tasks player level).isDone task) :=
  TaskState.isDone_sup ..

theorem isDone_progress_runChanges (db : Database) (changes : List Change) {player : String}
    {level : Level} {task : String} (h : (db.progress player level).tasks.isDone task = true) :
    ((db.runChanges changes).progress player level).tasks.isDone task = true := by
  induction changes generalizing db with
  | nil => exact h
  | cons change rest ih =>
      apply ih (change.apply db)
      rw [isDone_progress, Bool.or_eq_true] at h ⊢
      rcases h with hrequired | hdone
      · exact .inl hrequired
      · exact .inr (db.isDone_tasks_apply player level change hdone)

theorem done_progress_runChanges (db : Database) (changes : List Change) {player : String}
    {level : Level} (h : (db.progress player level).done = true) :
    ((db.runChanges changes).progress player level).done = true := by
  apply List.all_eq_true.2
  intro task hrequired
  apply db.isDone_progress_runChanges changes
  exact List.all_eq_true.1 h task hrequired

/-- **The same changes lead to the same database.**  From any database on, two sequences of
registrations, flags and manifests that contain the same changes, in any order and any number of
times, end in equal databases, provided that no player gets two different manifests.  Along any
sequence a flag that the progress of a player in a level shows as done stays done, and a level that
it shows as finished stays finished. -/
theorem changes_converge (db : Database) :
    (∀ xs ys : List Change,
      (∀ player text other, .manifest player text ∈ xs → .manifest player other ∈ xs →
        text = other) →
      (∀ change, change ∈ xs ↔ change ∈ ys) → db.runChanges xs = db.runChanges ys) ∧
    ∀ (earlier later : List Change) (player : String) (level : Level),
      let before := (db.runChanges earlier).progress player level
      let after := (db.runChanges (earlier ++ later)).progress player level
      (∀ task, before.tasks.isDone task = true → after.tasks.isDone task = true) ∧
        (before.done = true → after.done = true) := by
  constructor
  · intro xs ys hone hsame
    refine foldl_eq_of_mem_iff (p := (· ∈ xs)) ?_ ?_ ?_ hsame db
    · intro c d hc hd
      apply Change.apply_comm
      rintro player text other rfl rfl
      exact hone player text other hc hd
    · intro change _
      exact change.apply_idem
    · intro change hmem
      exact hmem
  · intro earlier later player level
    dsimp only
    rw [runChanges_append]
    constructor
    · intro task
      exact isDone_progress_runChanges _ later
    · exact done_progress_runChanges _ later

/-- Flags that are not set are changes as well, and the longer sequence repeats and reorders. -/
theorem converge_when_reordered :
    let first : List Change :=
      [.registration "ada", .flag "ada" .docker (.done Task.pull),
        .flag "ada" .docker ⟨"extra", false⟩, .flag "bob" .manifest ⟨Task.validManifest, false⟩,
        .manifest "ada" "kind: Pod"]
    let second : List Change :=
      [.manifest "ada" "kind: Pod", .flag "bob" .manifest ⟨Task.validManifest, false⟩,
        .flag "ada" .docker ⟨"extra", false⟩, .manifest "ada" "kind: Pod",
        .flag "ada" .docker (.done Task.pull), .registration "ada", .registration "ada"]
    empty.runChanges first = empty.runChanges second ∧
      ((empty.runChanges (first ++ [.flag "ada" .manifest ⟨Task.validManifest, false⟩])).progress
        "ada" .manifest).done = true := by
  intro first second
  obtain ⟨hconverge, hstays⟩ := changes_converge empty
  constructor
  · apply hconverge first second
    · intro player text other htext hother
      simp only [first, List.mem_cons, reduceCtorEq, Change.manifest.injEq, List.not_mem_nil,
        or_false, false_or] at htext hother
      rw [htext.2, hother.2]
    · have hleft : first ⊆ second := by decide
      have hright : second ⊆ first := by decide
      intro change
      exact ⟨fun h => hleft h, fun h => hright h⟩
  · apply (hstays first _ "ada" .manifest).2
    decide

end Database

end EscapeRoom
