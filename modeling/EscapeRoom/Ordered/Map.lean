/-!
# Finite maps in key order

A map is the list of its entries in strictly increasing key order, so two maps with the same
entries are equal and a listing is always sorted.  Strings are ordered by code point.

* `OrderedMap.get?`, `OrderedMap.insert` — lookup and update of one key.
* `OrderedMap.get?_insert` — what a lookup finds after an update.
* `OrderedMap.ext_get?` — maps with equal lookups are equal.
* `OrderedSet`, `OrderedSet.ext_mem` — the same for a set of keys.
-/

namespace EscapeRoom

/-- A finite map, listed in strictly increasing key order. -/
structure OrderedMap (κ ν : Type) [LT κ] where
  entries : List (κ × ν)
  sorted : entries.Pairwise fun a b => a.1 < b.1

namespace OrderedMap

variable {κ ν : Type} [LT κ]

@[ext] theorem ext_entries {m n : OrderedMap κ ν} (h : m.entries = n.entries) : m = n := by
  cases m; cases n; cases h; rfl

instance [DecidableEq κ] [DecidableEq ν] : DecidableEq (OrderedMap κ ν) := fun m n =>
  decidable_of_iff (m.entries = n.entries) ⟨ext_entries, fun h => h ▸ rfl⟩

/-- The map without entries. -/
def empty : OrderedMap κ ν := ⟨[], .nil⟩

instance : Inhabited (OrderedMap κ ν) := ⟨empty⟩

/-- The value of the first entry with a key. -/
def findEntry [DecidableEq κ] (key : κ) : List (κ × ν) → Option ν
  | [] => none
  | (k, v) :: rest => if key = k then some v else findEntry key rest

/-- The value stored under a key. -/
def get? [DecidableEq κ] (m : OrderedMap κ ν) (key : κ) : Option ν := findEntry key m.entries

def keys (m : OrderedMap κ ν) : List κ := m.entries.map Prod.fst

/-- The values, in the order of their keys. -/
def values (m : OrderedMap κ ν) : List ν := m.entries.map Prod.snd

/-- Puts an entry into its place in a sorted list, replacing the entry with its key. -/
def insertEntry [DecidableLT κ] [DecidableEq κ] (key : κ) (value : ν) :
    List (κ × ν) → List (κ × ν)
  | [] => [(key, value)]
  | (k, v) :: rest =>
      if key < k then (key, value) :: (k, v) :: rest
      else if key = k then (key, value) :: rest
      else (k, v) :: insertEntry key value rest

section
variable [DecidableLT κ] [DecidableEq κ]

theorem mem_insertEntry {key : κ} {value : ν} {l : List (κ × ν)} {e : κ × ν}
    (h : e ∈ insertEntry key value l) : e = (key, value) ∨ e ∈ l := by
  induction l with
  | nil => simpa [insertEntry] using h
  | cons x rest ih =>
      obtain ⟨k, v⟩ := x
      rw [insertEntry] at h
      split at h
      · simpa using h
      · split at h
        · rcases List.mem_cons.1 h with h | h
          · exact .inl h
          · exact .inr (List.mem_cons_of_mem _ h)
        · rcases List.mem_cons.1 h with h | h
          · exact .inr (h ▸ List.mem_cons_self)
          · exact (ih h).imp id (List.mem_cons_of_mem _)

theorem findEntry_insertEntry (key q : κ) (value : ν) (l : List (κ × ν)) :
    findEntry q (insertEntry key value l) = if q = key then some value else findEntry q l := by
  induction l with
  | nil => simp [insertEntry, findEntry]
  | cons x rest ih =>
      obtain ⟨k, v⟩ := x
      rw [insertEntry]
      split
      · simp only [findEntry]
      · split
        · rename_i hk
          subst hk
          by_cases h : q = key <;> simp [findEntry, h]
        · rename_i hne
          by_cases h : q = k
          · subst h
            simp [findEntry, Ne.symm hne]
          · simp [findEntry, h, ih]

variable [LE κ] [Std.IsLinearOrder κ] [Std.LawfulOrderLT κ]

theorem pairwise_insertEntry (key : κ) (value : ν) {l : List (κ × ν)}
    (h : l.Pairwise fun a b => a.1 < b.1) :
    (insertEntry key value l).Pairwise fun a b => a.1 < b.1 := by
  induction l with
  | nil => simp [insertEntry]
  | cons x rest ih =>
      obtain ⟨k, v⟩ := x
      have hx := List.pairwise_cons.1 h
      rw [insertEntry]
      split
      · rename_i hk
        refine List.pairwise_cons.2 ⟨fun e he => ?_, h⟩
        rcases List.mem_cons.1 he with rfl | he
        · exact hk
        · exact Std.lt_trans hk (hx.1 e he)
      · split
        · rename_i hk
          subst hk
          exact List.pairwise_cons.2 ⟨hx.1, hx.2⟩
        · rename_i hlt hne
          refine List.pairwise_cons.2 ⟨fun e he => ?_, ih hx.2⟩
          rcases mem_insertEntry he with rfl | he
          · exact Std.lt_of_le_of_ne (Std.not_lt.1 hlt) (Ne.symm hne)
          · exact hx.1 e he

/-- The map with `value` under `key`, whatever stood there. -/
def insert (m : OrderedMap κ ν) (key : κ) (value : ν) : OrderedMap κ ν :=
  ⟨insertEntry key value m.entries, pairwise_insertEntry key value m.sorted⟩

/-- The map of a list of entries; of two entries with one key the later counts. -/
def ofList (entries : List (κ × ν)) : OrderedMap κ ν :=
  entries.foldl (fun m e => m.insert e.1 e.2) empty

end

@[simp] theorem get?_empty [DecidableEq κ] (key : κ) : (empty : OrderedMap κ ν).get? key = none :=
  rfl

section
variable [DecidableLT κ] [DecidableEq κ] [LE κ] [Std.IsLinearOrder κ] [Std.LawfulOrderLT κ]

/-- A lookup after an update finds the new value under its key and the old one elsewhere. -/
theorem get?_insert (m : OrderedMap κ ν) (key q : κ) (value : ν) :
    (m.insert key value).get? q = if q = key then some value else m.get? q :=
  findEntry_insertEntry key q value m.entries

theorem get?_foldl_insert_of_not_mem {es : List (κ × ν)} {q : κ} (h : q ∉ es.map Prod.fst)
    (m : OrderedMap κ ν) : (es.foldl (fun m e => m.insert e.1 e.2) m).get? q = m.get? q := by
  induction es generalizing m with
  | nil => rfl
  | cons e rest ih =>
      rw [List.map_cons, List.mem_cons, not_or] at h
      rw [List.foldl_cons, ih h.2, get?_insert, if_neg h.1]

/-- The map of a list without repeated keys has the entries of the list. -/
theorem get?_ofList_of_mem {es : List (κ × ν)} (hnodup : (es.map Prod.fst).Nodup) {e : κ × ν}
    (h : e ∈ es) : (ofList es).get? e.1 = some e.2 := by
  have hfold : ∀ m : OrderedMap κ ν,
      (es.foldl (fun m e => m.insert e.1 e.2) m).get? e.1 = some e.2 := by
    induction es with
    | nil => exact absurd h List.not_mem_nil
    | cons x rest ih =>
        intro m
        rw [List.map_cons, List.nodup_cons] at hnodup
        rw [List.foldl_cons]
        rcases List.mem_cons.1 h with rfl | hrest
        · rw [get?_foldl_insert_of_not_mem hnodup.1, get?_insert, if_pos rfl]
        · exact ih hnodup.2 hrest _
  exact hfold empty

/-- An entry with the greatest key comes last. -/
theorem insertEntry_of_lt {key : κ} {value : ν} {l : List (κ × ν)} (h : ∀ e ∈ l, e.1 < key) :
    insertEntry key value l = l ++ [(key, value)] := by
  induction l with
  | nil => rfl
  | cons x rest ih =>
      obtain ⟨k, v⟩ := x
      have hk : k < key := h (k, v) List.mem_cons_self
      have hne : key ≠ k := fun he => Std.lt_irrefl (he ▸ hk)
      rw [insertEntry, if_neg (Std.not_lt.2 (Std.le_of_lt hk)), if_neg hne,
        ih fun e he => h e (List.mem_cons_of_mem _ he)]
      rfl

theorem entries_foldl_insert {l : List (κ × ν)} {m : OrderedMap κ ν}
    (h : (m.entries ++ l).Pairwise fun a b => a.1 < b.1) :
    (l.foldl (fun m e => m.insert e.1 e.2) m).entries = m.entries ++ l := by
  induction l generalizing m with
  | nil => exact (List.append_nil _).symm
  | cons e rest ih =>
      have hlast : (m.insert e.1 e.2).entries = m.entries ++ [e] :=
        insertEntry_of_lt fun x hx => (List.pairwise_append.1 h).2.2 x hx e List.mem_cons_self
      rw [List.foldl_cons, ih, hlast, List.append_assoc, List.singleton_append]
      rwa [hlast, List.append_assoc, List.singleton_append]

/-- A map is made again of its entries. -/
theorem ofList_entries (m : OrderedMap κ ν) : ofList m.entries = m :=
  ext_entries (entries_foldl_insert (m := empty) m.sorted)

end

section
variable [DecidableEq κ]

theorem findEntry_eq_none_of_lt [LE κ] [Std.IsLinearOrder κ] [Std.LawfulOrderLT κ] {q : κ}
    {l : List (κ × ν)} (h : ∀ e ∈ l, q < e.1) : findEntry q l = none := by
  induction l with
  | nil => rfl
  | cons x rest ih =>
      have hx : q < x.1 := h x List.mem_cons_self
      have hne : q ≠ x.1 := fun he => Std.lt_irrefl (he ▸ hx)
      obtain ⟨k, v⟩ := x
      simpa [findEntry, hne] using ih fun e he => h e (List.mem_cons_of_mem _ he)

/-- In a sorted list the entries of a key are found under it. -/
theorem mem_iff_findEntry [LE κ] [Std.IsLinearOrder κ] [Std.LawfulOrderLT κ] {q : κ} {v : ν}
    {l : List (κ × ν)} (h : l.Pairwise fun a b => a.1 < b.1) :
    (q, v) ∈ l ↔ findEntry q l = some v := by
  induction l with
  | nil => simp [findEntry]
  | cons x rest ih =>
      obtain ⟨hlt, hrest⟩ := List.pairwise_cons.1 h
      obtain ⟨k, w⟩ := x
      by_cases hk : q = k
      · subst hk
        have hnot : (q, v) ∉ rest := fun hmem => Std.lt_irrefl (hlt (q, v) hmem)
        simp [findEntry, hnot, eq_comm]
      · simp [findEntry, hk, ih hrest]

theorem mem_entries [LE κ] [Std.IsLinearOrder κ] [Std.LawfulOrderLT κ] {m : OrderedMap κ ν} {q : κ}
    {v : ν} : (q, v) ∈ m.entries ↔ m.get? q = some v :=
  mem_iff_findEntry m.sorted

theorem entries_eq_of_findEntry [LE κ] [Std.IsLinearOrder κ] [Std.LawfulOrderLT κ] :
    ∀ {l r : List (κ × ν)}, l.Pairwise (fun a b => a.1 < b.1) →
      r.Pairwise (fun a b => a.1 < b.1) → (∀ q, findEntry q l = findEntry q r) → l = r
  | [], [], _, _, _ => rfl
  | [], (k, v) :: r, _, _, h => by simpa [findEntry] using h k
  | (k, v) :: l, [], _, _, h => by simpa [findEntry] using h k
  | (k, v) :: l, (k', v') :: r, hl, hr, h => by
      have hl' := List.pairwise_cons.1 hl
      have hr' := List.pairwise_cons.1 hr
      have hk : k = k' := by
        refine Std.le_antisymm (Std.not_lt.1 fun hlt => ?_) (Std.not_lt.1 fun hlt => ?_)
        · have := h k'
          rw [findEntry_eq_none_of_lt (l := (k, v) :: l)] at this
          · simp [findEntry] at this
          · intro e he
            rcases List.mem_cons.1 he with rfl | he
            · exact hlt
            · exact Std.lt_trans hlt (hl'.1 e he)
        · have := h k
          rw [findEntry_eq_none_of_lt (l := (k', v') :: r)] at this
          · simp [findEntry] at this
          · intro e he
            rcases List.mem_cons.1 he with rfl | he
            · exact hlt
            · exact Std.lt_trans hlt (hr'.1 e he)
      subst hk
      have hv : v = v' := by simpa [findEntry] using h k
      subst hv
      have hrest : l = r := by
        refine entries_eq_of_findEntry hl'.2 hr'.2 fun q => ?_
        by_cases hq : q = k
        · subst hq
          rw [findEntry_eq_none_of_lt fun e he => hl'.1 e he,
            findEntry_eq_none_of_lt fun e he => hr'.1 e he]
        · simpa [findEntry, hq] using h q
      rw [hrest]

/-- Two maps with the same lookups are equal. -/
theorem ext_get? [LE κ] [Std.IsLinearOrder κ] [Std.LawfulOrderLT κ] {m n : OrderedMap κ ν}
    (h : ∀ q, m.get? q = n.get? q) : m = n :=
  ext_entries (entries_eq_of_findEntry m.sorted n.sorted h)

end

end OrderedMap

/-- A finite set, listed in strictly increasing order. -/
structure OrderedSet (κ : Type) [LT κ] where
  elements : List κ
  sorted : elements.Pairwise (· < ·)

namespace OrderedSet

variable {κ : Type} [LT κ]

@[ext] theorem ext_elements {s t : OrderedSet κ} (h : s.elements = t.elements) : s = t := by
  cases s; cases t; cases h; rfl

instance [DecidableEq κ] : DecidableEq (OrderedSet κ) := fun s t =>
  decidable_of_iff (s.elements = t.elements) ⟨ext_elements, fun h => h ▸ rfl⟩

/-- The set without elements. -/
def empty : OrderedSet κ := ⟨[], .nil⟩

instance : Inhabited (OrderedSet κ) := ⟨empty⟩

instance : Membership κ (OrderedSet κ) := ⟨fun s x => x ∈ s.elements⟩

instance [DecidableEq κ] (x : κ) (s : OrderedSet κ) : Decidable (x ∈ s) :=
  inferInstanceAs (Decidable (x ∈ s.elements))

/-- Whether an element is in the set. -/
def contains [DecidableEq κ] (s : OrderedSet κ) (x : κ) : Bool := decide (x ∈ s)

/-- Puts an element into its place in a sorted list without repeats. -/
def insertElement [DecidableLT κ] [DecidableEq κ] (x : κ) : List κ → List κ
  | [] => [x]
  | y :: rest =>
      if x < y then x :: y :: rest
      else if x = y then y :: rest
      else y :: insertElement x rest

section
variable [DecidableLT κ] [DecidableEq κ]

theorem mem_insertElement {x y : κ} {l : List κ} : y ∈ insertElement x l ↔ y = x ∨ y ∈ l := by
  induction l with
  | nil => simp [insertElement]
  | cons z rest ih =>
      rw [insertElement]
      split
      · simp
      · split
        · rename_i h
          subst h
          simp
        · simp only [List.mem_cons, ih]
          exact or_left_comm

variable [LE κ] [Std.IsLinearOrder κ] [Std.LawfulOrderLT κ]

theorem pairwise_insertElement (x : κ) {l : List κ} (h : l.Pairwise (· < ·)) :
    (insertElement x l).Pairwise (· < ·) := by
  induction l with
  | nil => simp [insertElement]
  | cons y rest ih =>
      have hy := List.pairwise_cons.1 h
      rw [insertElement]
      split
      · rename_i hx
        refine List.pairwise_cons.2 ⟨fun z hz => ?_, h⟩
        rcases List.mem_cons.1 hz with rfl | hz
        · exact hx
        · exact Std.lt_trans hx (hy.1 z hz)
      · split
        · exact h
        · rename_i hlt hne
          refine List.pairwise_cons.2 ⟨fun z hz => ?_, ih hy.2⟩
          rcases mem_insertElement.1 hz with rfl | hz
          · exact Std.lt_of_le_of_ne (Std.not_lt.1 hlt) (Ne.symm hne)
          · exact hy.1 z hz

/-- The set with one more element, or the same set when the element is in it. -/
def insert (s : OrderedSet κ) (x : κ) : OrderedSet κ :=
  ⟨insertElement x s.elements, pairwise_insertElement x s.sorted⟩

/-- The set of the elements of a list. -/
def ofList (xs : List κ) : OrderedSet κ := xs.foldl insert empty

/-- An update adds its element and no other. -/
@[simp] theorem mem_insert {s : OrderedSet κ} {x y : κ} : y ∈ s.insert x ↔ y = x ∨ y ∈ s :=
  mem_insertElement

/-- The greatest element comes last. -/
theorem insertElement_of_lt {x : κ} {l : List κ} (h : ∀ y ∈ l, y < x) :
    insertElement x l = l ++ [x] := by
  induction l with
  | nil => rfl
  | cons y rest ih =>
      have hy : y < x := h y List.mem_cons_self
      have hne : x ≠ y := fun he => Std.lt_irrefl (he ▸ hy)
      rw [insertElement, if_neg (Std.not_lt.2 (Std.le_of_lt hy)), if_neg hne,
        ih fun z hz => h z (List.mem_cons_of_mem _ hz)]
      rfl

theorem elements_foldl_insert {l : List κ} {s : OrderedSet κ}
    (h : (s.elements ++ l).Pairwise (· < ·)) : (l.foldl insert s).elements = s.elements ++ l := by
  induction l generalizing s with
  | nil => exact (List.append_nil _).symm
  | cons x rest ih =>
      have hlast : (s.insert x).elements = s.elements ++ [x] :=
        insertElement_of_lt fun y hy => (List.pairwise_append.1 h).2.2 y hy x List.mem_cons_self
      rw [List.foldl_cons, ih, hlast, List.append_assoc, List.singleton_append]
      rwa [hlast, List.append_assoc, List.singleton_append]

theorem insertElement_of_mem {x : κ} {l : List κ} (h : l.Pairwise (· < ·)) (hx : x ∈ l) :
    insertElement x l = l := by
  induction l with
  | nil => exact absurd hx List.not_mem_nil
  | cons y rest ih =>
      have hy := List.pairwise_cons.1 h
      rcases List.mem_cons.1 hx with rfl | hrest
      · rw [insertElement, if_neg (Std.lt_irrefl), if_pos rfl]
      · have hlt : y < x := hy.1 x hrest
        have hne : x ≠ y := fun he => Std.lt_irrefl (he ▸ hlt)
        rw [insertElement, if_neg (Std.not_lt.2 (Std.le_of_lt hlt)), if_neg hne, ih hy.2 hrest]

/-- Nothing changes when an element is put in again. -/
theorem insert_of_mem {s : OrderedSet κ} {x : κ} (h : x ∈ s) : s.insert x = s :=
  ext_elements (insertElement_of_mem s.sorted h)

/-- A set is made again of its elements. -/
theorem ofList_elements (s : OrderedSet κ) : ofList s.elements = s :=
  ext_elements (elements_foldl_insert (s := empty) s.sorted)

end

@[simp] theorem not_mem_empty (x : κ) : ¬ x ∈ (empty : OrderedSet κ) := List.not_mem_nil

/-- Sets with the same elements are equal. -/
theorem ext_mem [LE κ] [Std.IsLinearOrder κ] [Std.LawfulOrderLT κ] {s t : OrderedSet κ}
    (h : ∀ x, x ∈ s ↔ x ∈ t) : s = t := by
  have hnodup : ∀ u : OrderedSet κ, u.elements.Nodup := by
    intro u
    refine u.sorted.imp ?_
    rintro x y hlt rfl
    exact Std.lt_irrefl hlt
  apply ext_elements
  refine List.Perm.eq_of_pairwise ?_ s.sorted t.sorted ?_
  · intro x y _ _ hxy hyx
    exact absurd (Std.lt_trans hxy hyx) Std.lt_irrefl
  · exact (List.perm_ext_iff_of_nodup (hnodup s) (hnodup t)).2 h

end OrderedSet

end EscapeRoom
