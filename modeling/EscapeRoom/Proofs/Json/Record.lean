import EscapeRoom.Proofs.Json.RoundTrip

/-!
# Reading back records

The fields of a record are lawful when reading the members that a record is written with, in any
layout, fills the state from which the record is made again.  Records of lawful fields with
different names are lawful.  Members of other names are passed over.

* `Json.Fields.Fills` — reading members one after the other.
* `Json.Fields.Reads` — the same among members of other names.
* `Json.Fields.Lawful` — the law, for `field`, `optionalField`, `and` and `iso`.
* `Json.Codec.Lawful.record` — the codec of a record.
-/

namespace EscapeRoom.Json

variable {σ τ α β : Type}

namespace Fields

/-- Reading members one after the other, in any layout, takes one state to another. -/
inductive Fills (f : Fields σ α) : σ → List (String × Value) → σ → Prop
  | nil (s : σ) : Fills f s [] s
  | cons {s next last : σ} {name : String} {v : Value} {ms : List (String × Value)}
      (hknows : f.knows name = true) (hnew : f.has name s = false)
      (hread : ∀ ws text rest, Blank ws → IsText v text → EndsNumber rest →
        f.read name s (ws ++ (text ++ rest)) = .ok (next, rest))
      (hrest : Fills f next ms last) : Fills f s ((name, v) :: ms) last

namespace Fills

variable {f : Fields σ α} {g : Fields τ β} {s s' s'' : σ} {t t' : τ}
  {ms ns : List (String × Value)}

theorem append (h : f.Fills s ms s') (hnext : f.Fills s' ns s'') : f.Fills s (ms ++ ns) s'' := by
  induction h with
  | nil s => exact hnext
  | cons hknows hnew hread _ ih => exact .cons hknows hnew hread (ih hnext)

theorem and_left (h : f.Fills s ms s') (t : τ) : (f.and g).Fills (s, t) ms (s', t) := by
  induction h with
  | nil s => exact .nil _
  | cons hknows hnew hread _ ih =>
      refine .cons ?_ ?_ (fun ws text rest hws htext hrest => ?_) ih
      · simp only [Fields.and, hknows, Bool.true_or]
      · simp only [Fields.and, hknows, if_true, hnew]
      · simp only [Fields.and, hknows, if_true, hread ws text rest hws htext hrest]
        rfl

theorem and_right (h : g.Fills t ms t') (s : σ)
    (hdisjoint : ∀ name, g.knows name = true → f.knows name = false) :
    (f.and g).Fills (s, t) ms (s, t') := by
  induction h with
  | nil t => exact .nil _
  | cons hknows hnew hread _ ih =>
      have hother := hdisjoint _ hknows
      refine .cons ?_ ?_ (fun ws text rest hws htext hrest => ?_) ih
      · simp only [Fields.and, hknows, Bool.or_true]
      · simp only [Fields.and, hother, Bool.false_eq_true, if_false, hnew]
      · simp only [Fields.and, hother, Bool.false_eq_true, if_false,
          hread ws text rest hws htext hrest]
        rfl

theorem iso (h : f.Fills s ms s') (make : α → β) (inverse : β → α) :
    (f.iso make inverse).Fills s ms s' := by
  induction h with
  | nil s => exact .nil _
  | cons hknows hnew hread _ ih => exact .cons hknows hnew hread ih

end Fills

/-- A value that is passed over where nobody asks for it. -/
def IsSkipped (v : Value) : Prop :=
  ∀ ws text rest fuel, Blank ws → IsText v text →
    skipValue (fuel + 1) (ws ++ (text ++ rest)) = .ok rest

theorem isSkipped_string (s : String) : IsSkipped (.string s) := by
  intro ws text rest fuel hws htext
  cases htext with
  | string =>
      rw [quoted_append, skipValue.eq_def]
      simp only [skipSpaces_append_cons hws (rfl : isSpace '"' = false), skipString_quoted]

/-- Reading members one after the other, of which those of other names are passed over. -/
inductive Reads (f : Fields σ α) : σ → List (String × Value) → σ → Prop
  | nil (s : σ) : Reads f s [] s
  | known {s next last : σ} {name : String} {v : Value} {ms : List (String × Value)}
      (hknows : f.knows name = true) (hnew : f.has name s = false)
      (hread : ∀ ws text rest, Blank ws → IsText v text → EndsNumber rest →
        f.read name s (ws ++ (text ++ rest)) = .ok (next, rest))
      (hrest : Reads f next ms last) : Reads f s ((name, v) :: ms) last
  | unknown {s last : σ} {name : String} {v : Value} {ms : List (String × Value)}
      (hknows : f.knows name = false) (hskip : IsSkipped v) (hrest : Reads f s ms last) :
      Reads f s ((name, v) :: ms) last

/-- Behind a key and a colon a value is read, or passed over. -/
theorem readMembers_key (f : Fields σ α) (s : σ) (fuel : Nat) {first : Bool} {lead : List Char}
    (hlead : Lead first lead) (name : String) {afterKey value : List Char}
    (hcolon : colon afterKey = .ok value) :
    f.readMembers (fuel + 1) first s (lead ++ (quoted name ++ afterKey)) =
      if f.knows name then
        if f.has name s then .error .unfit
        else (f.read name s value).bind fun r => f.readMembers fuel false r.1 r.2
      else (skipValue fuel value).bind (f.readMembers fuel false s) := by
  have hkey := memberKey_quoted name afterKey
  rw [quoted_append] at hkey ⊢
  rw [readMembers, separator_item (by decide) hlead rfl (by decide)]
  simp only [bind, Except.bind, Bool.not_true, Bool.false_eq_true, if_false, hkey, hcolon]
  split
  · split <;> rfl
  · rfl

theorem readMembers_member (f : Fields σ α) (s : σ) (fuel : Nat) {first : Bool}
    {lead text : List Char} {name : String} {v : Value} (hlead : Lead first lead)
    (htext : IsMember (name, v) text) (rest : List Char) :
    ∃ ws value, Blank ws ∧ IsText v value ∧
      f.readMembers (fuel + 1) first s (lead ++ (text ++ rest)) =
        if f.knows name then
          if f.has name s then .error .unfit
          else (f.read name s (ws ++ (value ++ rest))).bind fun r =>
            f.readMembers fuel false r.1 r.2
        else (skipValue fuel (ws ++ (value ++ rest))).bind (f.readMembers fuel false s) := by
  obtain ⟨afterKey, ws, value, hsplit, hcolon, hws, hvalue⟩ := htext.split rest
  refine ⟨ws, value, hws, hvalue, ?_⟩
  rw [hsplit]
  exact f.readMembers_key s fuel hlead name hcolon

namespace Reads

variable {f : Fields σ α} {s s' s'' : σ} {ms ns : List (String × Value)}

theorem of_fills (h : f.Fills s ms s') (hnext : f.Reads s' ns s'') : f.Reads s (ms ++ ns) s'' := by
  induction h with
  | nil s => exact hnext
  | cons hknows hnew hread _ ih => exact .known hknows hnew hread (ih hnext)

/-- Members are read up to the closing bracket. -/
theorem readMembers_eq (h : f.Reads s ms s') {first : Bool} {body : List Char}
    (hbody : Listed '}' IsMember first ms body) (rest : List Char) {fuel : Nat}
    (hfuel : ms.length < fuel) : f.readMembers fuel first s (body ++ rest) = .ok (s', rest) := by
  induction h generalizing first body fuel with
  | nil s =>
      obtain ⟨fuel, rfl⟩ := Nat.exists_eq_add_one.2 (Nat.zero_lt_of_lt hfuel)
      cases hbody with
      | nil hws =>
          rw [readMembers, List.append_assoc, List.singleton_append, separator_closing rfl _ hws]
          rfl
  | @known s next last name v ms hknows hnew hread _ ih =>
      obtain ⟨fuel, rfl⟩ := Nat.exists_eq_add_one.2 (Nat.zero_lt_of_lt hfuel)
      cases hbody with
      | @cons _ lead text more _ _ hlead htext hmore =>
          obtain ⟨ws, value, hws, hvalue, hmember⟩ :=
            f.readMembers_member s fuel hlead htext (more ++ rest)
          have hfield := hread ws value (more ++ rest) hws hvalue (hmore.endsNumber rfl rest)
          rw [List.append_assoc, List.append_assoc, hmember, if_pos hknows, hnew, hfield]
          exact ih hmore (Nat.lt_of_succ_lt_succ hfuel)
  | @unknown s last name v ms hknows hskip _ ih =>
      -- one unit of fuel is for this member, and the value needs one of its own
      obtain ⟨fuel, rfl⟩ := Nat.exists_eq_add_one.2 (Nat.zero_lt_of_lt hfuel)
      have hlength : ms.length < fuel := Nat.lt_of_succ_lt_succ hfuel
      obtain ⟨inner, rfl⟩ := Nat.exists_eq_add_one.2 (Nat.zero_lt_of_lt hlength)
      cases hbody with
      | @cons _ lead text more _ _ hlead htext hmore =>
          obtain ⟨ws, value, hws, hvalue, hmember⟩ :=
            f.readMembers_member s (inner + 1) hlead htext (more ++ rest)
          have hpassed := hskip ws value (more ++ rest) inner hws hvalue
          rw [List.append_assoc, List.append_assoc, hmember, hknows, hpassed]
          exact ih hmore hlength

/-- An object is read as the record that its members make, if they make one. -/
theorem record_eq (h : f.Reads f.start ms s) {ws text : List Char} (hws : Blank ws)
    (htext : IsText (.object ms) text) (rest : List Char) :
    f.record (ws ++ (text ++ rest)) =
      match f.finish s with
      | some a => .ok (a, rest)
      | none => .error .unfit := by
  cases htext with
  | @object _ body hmembers =>
      have hlength := hmembers.length_lt fun _ _ hm => hm.startsItem
      have hread := h.readMembers_eq hmembers rest (Nat.lt_of_lt_of_le hlength
        (Nat.le_succ_of_le (List.length_append ▸ Nat.le_add_right _ rest.length)))
      rw [Fields.record, List.cons_append, skipSpaces_append_cons hws rfl]
      show (f.readMembers (body ++ rest).length.succ true f.start (body ++ rest) >>= _) = _
      rw [hread]
      rfl

end Reads

/-- The members that a record is written with fill the state of which it is made. -/
def Lawful (f : Fields σ α) : Prop :=
  ∀ a, ∃ s, f.Fills f.start (f.members a) s ∧ f.finish s = some a

namespace Lawful

variable {f : Fields σ α} {g : Fields τ β} {c : Codec α}

theorem reads (h : f.Lawful) (a : α) :
    ∃ s, f.Reads f.start (f.members a) s ∧ f.finish s = some a := by
  obtain ⟨s, hfills, hfinish⟩ := h a
  have hreads := Reads.of_fills hfills (.nil s)
  rw [List.append_nil] at hreads
  exact ⟨s, hreads, hfinish⟩

theorem field (h : c.Lawful) (name : String) : (Fields.field name c).Lawful := by
  intro a
  refine ⟨some a, .cons (beq_self_eq_true name) rfl (fun ws text rest hws htext hrest => ?_)
    (.nil _), rfl⟩
  have hread := h a ws text rest hws htext hrest
  simp only [Fields.field, hread]
  rfl

/-- A field that may be missing.  It is not written as `null`, which would be read as missing. -/
theorem optionalField (h : c.Lawful) (hnull : ∀ a, c.encode a ≠ .null) (name : String) :
    (Fields.optionalField name c).Lawful := by
  intro a
  cases a with
  | none => exact ⟨none, .nil _, rfl⟩
  | some a =>
      refine ⟨some (some a), .cons (beq_self_eq_true name) rfl
        (fun ws text rest hws htext hrest => ?_) (.nil _), rfl⟩
      have hread : optional c.decoder (ws ++ (text ++ rest)) = .ok (some a, rest) := by
        obtain ⟨d, ds, hds, hspace, -, -, hn⟩ := htext.head
        have hvalue := h.decoder_eq htext hrest
        rw [hds, List.cons_append] at hvalue ⊢
        rw [optional, skipSpaces_append_cons hws hspace]
        split
        · rename_i heq
          cases heq
          exact absurd rfl (hn (hnull a))
        · rw [hvalue]
          rfl
      simp only [Fields.optionalField, hread]
      rfl

theorem and (hf : f.Lawful) (hg : g.Lawful)
    (hdisjoint : ∀ name, g.knows name = true → f.knows name = false) : (f.and g).Lawful := by
  intro p
  obtain ⟨s, hfills, hfinish⟩ := hf p.1
  obtain ⟨t, hgills, hginish⟩ := hg p.2
  refine ⟨(s, t), (hfills.and_left g.start).append (hgills.and_right s hdisjoint), ?_⟩
  simp only [Fields.and, hfinish, hginish]
  rfl

/-- A field and then fields of other names. -/
theorem field_and (h : c.Lawful) (name : String) (hg : g.Lawful) (hname : g.knows name = false) :
    ((Fields.field name c).and g).Lawful := by
  refine (Lawful.field h name).and hg fun other hother => ?_
  show (other == name) = false
  rw [beq_eq_false_iff_ne]
  rintro rfl
  rw [hname] at hother
  exact Bool.false_ne_true hother

theorem iso (h : f.Lawful) {make : α → β} {inverse : β → α} (hmake : ∀ b, make (inverse b) = b) :
    (f.iso make inverse).Lawful := by
  intro b
  obtain ⟨s, hfills, hfinish⟩ := h (inverse b)
  refine ⟨s, hfills.iso make inverse, ?_⟩
  simp only [Fields.iso, hfinish, Option.map_some, hmake]

end Lawful

end Fields

/-- **A record of lawful fields is read back.** -/
theorem Codec.Lawful.record {f : Fields σ α} (h : f.Lawful) : (Codec.record f).Lawful := by
  intro a ws text rest hws htext _
  obtain ⟨s, hreads, hfinish⟩ := h.reads a
  refine (hreads.record_eq hws htext rest).trans ?_
  rw [hfinish]

/-- A whole text of an object from which a record cannot be made. -/
theorem Codec.run_unfit {f : Fields σ α} {ms : List (String × Value)} {s : σ}
    (h : f.Reads f.start ms s) (hfinish : f.finish s = none) :
    (Codec.record f).decoder.run (Value.object ms).compact = .error .unfit := by
  have hread := h.record_eq blank_nil (isText_compact (.object ms)) []
  rw [List.nil_append, List.append_nil, hfinish] at hread
  have hdecoder : (Codec.record f).decoder (Value.object ms).compact = .error .unfit := hread
  rw [Decoder.run, hdecoder]
  rfl

end EscapeRoom.Json
