import EscapeRoom.Text.Utf8
import Mathlib.Data.UInt

/-!
# Reading back text from its octets

The octets of a text are well-formed, and they are the octets of no other text.

* `Text.Utf8.firstChar_one` to `Text.Utf8.firstChar_four` — characters of each number of octets.
* `Text.Utf8.firstChar_encodeChar` — the octets of a character are read as the character.
* `Text.Utf8.decode?_encode` — the octets of a text are read as the text.
* `Text.Utf8.decodeMarked_encode_append`, `Text.Utf8.decodeMarked_append` — where any octets may be
  cut, so that the parts are read one by one.
-/

namespace EscapeRoom.Text.Utf8

theorem toNat_ofNat {n : Nat} (h : n < 256) : (UInt8.ofNat n).toNat = n :=
  Nat.mod_eq_of_lt h

theorem isContinuation_ofNat (n : Nat) : isContinuation (UInt8.ofNat (0x80 + n % 64)) = true := by
  have h := toNat_ofNat (n := 0x80 + n % 64) (by omega)
  simp only [isContinuation, UInt8.le_iff_toNat_le, UInt8.lt_iff_toNat_lt, h, Bool.and_eq_true,
    decide_eq_true_eq]
  simp
  omega

theorem low6_ofNat (n : Nat) : low6 (UInt8.ofNat (0x80 + n % 64)) = n % 64 := by
  rw [low6, toNat_ofNat (by omega)]
  omega

theorem isContinuation_iff {b : UInt8} :
    isContinuation b = true ↔ 0x80 ≤ b.toNat ∧ b.toNat < 0xC0 := by
  rw [isContinuation, Bool.and_eq_true, decide_eq_true_eq, decide_eq_true_eq,
    UInt8.le_iff_toNat_le, UInt8.lt_iff_toNat_lt]
  rfl

/-- Which octets may follow a leading octet. -/
theorem isSecond_iff {lead b : UInt8} :
    isSecond lead b = true ↔ isContinuation b = true ∧
      (lead.toNat = 0xE0 → 0xA0 ≤ b.toNat) ∧ (lead.toNat = 0xED → b.toNat < 0xA0) ∧
      (lead.toNat = 0xF0 → 0x90 ≤ b.toNat) ∧ (lead.toNat = 0xF4 → b.toNat < 0x90) := by
  have hlead : ∀ d : UInt8, lead = d ↔ lead.toNat = d.toNat := fun d => UInt8.toNat_inj.symm
  rw [isSecond, Bool.and_eq_true, and_congr_right_iff]
  intro _
  simp only [beq_iff_eq, hlead, UInt8.reduceToNat]
  split_ifs <;> simp [UInt8.le_iff_toNat_le, UInt8.lt_iff_toNat_lt, *]

theorem sequenceLength_ofNat {n : Nat} (h : n < 256) :
    sequenceLength (UInt8.ofNat n) =
      if n < 0x80 then 1
      else if 0xC2 ≤ n ∧ n < 0xE0 then 2
      else if 0xE0 ≤ n ∧ n < 0xF0 then 3
      else if 0xF0 ≤ n ∧ n < 0xF5 then 4
      else 0 := by
  simp only [sequenceLength, UInt8.lt_iff_toNat_lt, UInt8.le_iff_toNat_le, toNat_ofNat h,
    Bool.and_eq_true, decide_eq_true_eq]
  rfl

/-- The leading octets of characters, by the number of octets. -/
theorem toNat_of_sequenceLength (b : UInt8) :
    (sequenceLength b = 1 → b.toNat < 0x80) ∧
      (sequenceLength b = 2 → 0xC2 ≤ b.toNat ∧ b.toNat < 0xE0) ∧
      (sequenceLength b = 3 → 0xE0 ≤ b.toNat ∧ b.toNat < 0xF0) ∧
      (sequenceLength b = 4 → 0xF0 ≤ b.toNat ∧ b.toNat < 0xF5) := by
  have hlength := sequenceLength_ofNat b.toNat_lt
  rw [UInt8.ofNat_toNat] at hlength
  rw [hlength]
  split_ifs <;> simp_all

/-- The code of a character is no surrogate and not too large. -/
theorem toNat_valid (c : Char) : c.toNat < 0xD800 ∨ 0xDFFF < c.toNat ∧ c.toNat < 0x110000 :=
  c.valid

/-! ### One character, by the number of its octets -/

section
variable {n : Nat} (rest : List UInt8)

theorem firstChar_one (h : n < 0x80) : firstChar (.ofNat n) rest = .inl (Char.ofNat n, 1) := by
  have hlength := sequenceLength_ofNat (n := n) (by omega)
  rw [if_pos h] at hlength
  have hlead := toNat_ofNat (n := n) (by omega)
  unfold firstChar
  simp only [hlength, hlead]

theorem firstChar_two (hmin : 0x80 ≤ n) (hmax : n < 0x800) :
    firstChar (.ofNat (0xC0 + n / 64)) (.ofNat (0x80 + n % 64) :: rest) =
      .inl (Char.ofNat n, 2) := by
  have hlength := sequenceLength_ofNat (n := 0xC0 + n / 64) (by omega)
  rw [if_neg (by omega), if_pos (by omega)] at hlength
  have hlead := toNat_ofNat (n := 0xC0 + n / 64) (by omega)
  have hcode : (0xC0 + n / 64) % 32 * 64 + n % 64 = n := by omega
  rw [firstChar, hlength]
  simp only [isContinuation_ofNat, if_true, low6_ofNat, hlead, hcode]

/-- The octet after the leading one keeps short codes and surrogates from being written in three. -/
theorem firstChar_three (hmin : 0x800 ≤ n) (hmax : n < 0x10000) (hvalid : n < 0xD800 ∨ 0xDFFF < n) :
    firstChar (.ofNat (0xE0 + n / 4096))
        (.ofNat (0x80 + n / 64 % 64) :: .ofNat (0x80 + n % 64) :: rest) =
      .inl (Char.ofNat n, 3) := by
  have hlength := sequenceLength_ofNat (n := 0xE0 + n / 4096) (by omega)
  rw [if_neg (by omega), if_neg (by omega), if_pos (by omega)] at hlength
  have hlead := toNat_ofNat (n := 0xE0 + n / 4096) (by omega)
  have hnext := toNat_ofNat (n := 0x80 + n / 64 % 64) (by omega)
  have hsecond : isSecond (.ofNat (0xE0 + n / 4096)) (.ofNat (0x80 + n / 64 % 64)) = true :=
    isSecond_iff.2 ⟨isContinuation_ofNat _, by omega, by omega, by omega, by omega⟩
  have hcode : (0xE0 + n / 4096) % 16 * 4096 + n / 64 % 64 * 64 + n % 64 = n := by omega
  rw [firstChar, hlength]
  simp only [hsecond, isContinuation_ofNat, Bool.not_true, Bool.false_eq_true, if_false, low6_ofNat,
    hlead, hcode]

theorem firstChar_four (hmin : 0x10000 ≤ n) (hmax : n < 0x110000) :
    firstChar (.ofNat (0xF0 + n / 262144)) (.ofNat (0x80 + n / 4096 % 64) ::
        .ofNat (0x80 + n / 64 % 64) :: .ofNat (0x80 + n % 64) :: rest) =
      .inl (Char.ofNat n, 4) := by
  have hlength := sequenceLength_ofNat (n := 0xF0 + n / 262144) (by omega)
  rw [if_neg (by omega), if_neg (by omega), if_neg (by omega), if_pos (by omega)] at hlength
  have hlead := toNat_ofNat (n := 0xF0 + n / 262144) (by omega)
  have hnext := toNat_ofNat (n := 0x80 + n / 4096 % 64) (by omega)
  have hsecond : isSecond (.ofNat (0xF0 + n / 262144)) (.ofNat (0x80 + n / 4096 % 64)) = true :=
    isSecond_iff.2 ⟨isContinuation_ofNat _, by omega, by omega, by omega, by omega⟩
  have hcode : (0xF0 + n / 262144) % 8 * 262144 + n / 4096 % 64 * 4096 + n / 64 % 64 * 64 + n % 64 =
      n := by omega
  rw [firstChar, hlength]
  simp only [hsecond, isContinuation_ofNat, Bool.not_true, Bool.false_eq_true, if_false, low6_ofNat,
    hlead, hcode]

end

theorem firstChar_encodeChar (c : Char) :
    ∃ b bs, encodeChar c = b :: bs ∧
      ∀ rest, firstChar b (bs ++ rest) = .inl (c, bs.length + 1) := by
  have hvalid := toNat_valid c
  have hchar : Char.ofNat c.toNat = c := Char.ofNat_toNat c
  rw [encodeChar]
  split_ifs with h1 h2 h3
  · have hread := fun rest => firstChar_one rest h1
    rw [hchar] at hread
    exact ⟨_, _, rfl, hread⟩
  · have hread := fun rest => firstChar_two rest (by omega) h2
    rw [hchar] at hread
    exact ⟨_, _, rfl, hread⟩
  · have hread := fun rest => firstChar_three rest (by omega) h3 (by omega)
    rw [hchar] at hread
    exact ⟨_, _, rfl, hread⟩
  · have hread := fun rest => firstChar_four (n := c.toNat) rest (by omega) (by omega)
    rw [hchar] at hread
    exact ⟨_, _, rfl, hread⟩

/-! ### Texts -/

theorem decodeWith_skip (bad : Option (List Char)) (skip : Nat) (octets : List UInt8) :
    decodeWith bad skip octets = decodeWith bad 0 (octets.drop skip) := by
  induction octets generalizing skip with
  | nil => cases skip <;> rfl
  | cons b rest ih =>
      cases skip with
      | zero => rfl
      | succ skip => exact ih skip

theorem encode_cons (c : Char) (cs : List Char) :
    ∃ b bs, encode (c :: cs) = b :: (bs ++ encode cs) ∧
      ∀ rest, firstChar b (bs ++ rest) = .inl (c, bs.length + 1) := by
  obtain ⟨b, bs, hbytes, hfirst⟩ := firstChar_encodeChar c
  refine ⟨b, bs, ?_, hfirst⟩
  rw [encode, List.flatMap_cons, hbytes]
  rfl

/-- What becomes of ill-formed places does not matter for the octets of a text. -/
theorem decodeWith_encode (bad : Option (List Char)) (cs : List Char) :
    decodeWith bad 0 (encode cs) = some cs := by
  induction cs with
  | nil => rfl
  | cons c cs ih =>
      obtain ⟨b, bs, hencode, hfirst⟩ := encode_cons c cs
      rw [hencode, decodeWith, hfirst]
      simp only [Nat.add_sub_cancel, decodeWith_skip bad bs.length, List.drop_left, ih]
      rfl

/-- **The octets of a text are read as the text.** -/
theorem decode?_encode (cs : List Char) : decode? (encode cs) = some cs :=
  decodeWith_encode none cs

theorem decodeMarked_encode (mark cs : List Char) : decodeMarked mark (encode cs) = cs := by
  rw [decodeMarked, decodeWith_encode]
  rfl

theorem decodeLossy_encode (cs : List Char) : decodeLossy (encode cs) = cs :=
  decodeMarked_encode _ cs

theorem encode_append (cs ds : List Char) : encode (cs ++ ds) = encode cs ++ encode ds :=
  List.flatMap_append

/-- A character of ASCII is one octet. -/
theorem encodeChar_ascii {c : Char} (h : c.toNat < 0x80) :
    encodeChar c = [UInt8.ofNat c.toNat] := by
  rw [encodeChar]
  exact if_pos h

/-- A text of ASCII has one octet for each character. -/
theorem length_encode_ascii {cs : List Char} (h : ∀ c ∈ cs, c.toNat < 0x80) :
    (encode cs).length = cs.length := by
  induction cs with
  | nil => rfl
  | cons c cs ih =>
      obtain ⟨hc, hcs⟩ := List.forall_mem_cons.1 h
      have hrest : (cs.flatMap encodeChar).length = cs.length := ih hcs
      rw [encode, List.flatMap_cons, encodeChar_ascii hc, List.length_append, hrest,
        List.length_singleton, List.length_cons, Nat.add_comm]

/-- A character has at most four octets. -/
theorem length_encode_le (cs : List Char) : (encode cs).length ≤ 4 * cs.length := by
  induction cs with
  | nil => exact Nat.le_refl 0
  | cons c cs ih =>
      have hchar : (encodeChar c).length ≤ 4 := by
        rw [encodeChar]
        split_ifs <;> simp
      have hcons : encode (c :: cs) = encodeChar c ++ encode cs := List.flatMap_cons
      rw [hcons, List.length_append, List.length_cons]
      omega

/-! ### Any octets -/

theorem toNat_char {n : Nat} (h : n < 0xD800 ∨ 0xDFFF < n ∧ n < 0x110000) :
    (Char.ofNat n).toNat = n := by
  rw [Char.ofNat, dif_pos h]
  rfl

theorem toNat_two {b : UInt8} (hb : 0xC2 ≤ b.toNat ∧ b.toNat < 0xE0) (x : UInt8) :
    0x80 ≤ (Char.ofNat (b.toNat % 32 * 64 + low6 x)).toNat := by
  rw [toNat_char] <;> simp only [low6] <;> omega

/-- The second octet of three keeps the code from being short or a surrogate. -/
theorem toNat_three {b x : UInt8} (hb : 0xE0 ≤ b.toNat ∧ b.toNat < 0xF0)
    (hsecond : isSecond b x = true) (y : UInt8) :
    0x80 ≤ (Char.ofNat (b.toNat % 16 * 4096 + low6 x * 64 + low6 y)).toNat := by
  obtain ⟨hx, hE0, hED, -, -⟩ := isSecond_iff.1 hsecond
  rw [isContinuation_iff] at hx
  rw [toNat_char] <;> simp only [low6] <;> omega

/-- The second octet of four keeps the code from being short or too large. -/
theorem toNat_four {b x : UInt8} (hb : 0xF0 ≤ b.toNat ∧ b.toNat < 0xF5)
    (hsecond : isSecond b x = true) (y z : UInt8) :
    0x80 ≤ (Char.ofNat (b.toNat % 8 * 262144 + low6 x * 4096 + low6 y * 64 + low6 z)).toNat := by
  obtain ⟨hx, -, -, hF0, hF4⟩ := isSecond_iff.1 hsecond
  rw [isContinuation_iff] at hx
  rw [toNat_char] <;> simp only [low6] <;> omega

/-- A character of several octets is none of ASCII. -/
theorem toNat_firstChar {b : UInt8} {rest : List UInt8} {c : Char} {n : Nat}
    (h : firstChar b rest = .inl (c, n)) : c.toNat = b.toNat ∨ 0x80 ≤ c.toNat := by
  obtain ⟨hone, htwo, hthree, hfour⟩ := toNat_of_sequenceLength b
  unfold firstChar at h
  split at h
  · rename_i hlength
    cases h
    exact .inl (toNat_char (.inl (Nat.lt_trans (hone hlength) (by decide))))
  · rename_i hlength
    split at h
    · split_ifs at h with hx
      cases h
      exact .inr (toNat_two (htwo hlength) _)
    · cases h
  · rename_i hlength
    split at h
    · simp only [Bool.not_eq_true', ← Bool.not_eq_true] at h
      split_ifs at h with hx hy
      cases h
      exact .inr (toNat_three (hthree hlength) hx _)
    · split_ifs at h
    · cases h
  · rename_i hlength
    split at h
    · simp only [Bool.not_eq_true', ← Bool.not_eq_true] at h
      split_ifs at h with hx hy hz
      cases h
      exact .inr (toNat_four (hfour hlength) hx _ _)
    · split_ifs at h
    · split_ifs at h
    · cases h
  · cases h

/-- How many octets the first character takes, or the first ill-formed place. -/
def span (b : UInt8) (rest : List UInt8) : Nat := (firstChar b rest).elim Prod.snd id

/-- What is read of them, with a mark for an ill-formed place. -/
def piece (mark : List Char) (b : UInt8) (rest : List UInt8) : List Char :=
  (firstChar b rest).elim (fun p => [p.1]) fun _ => mark

theorem span_le (b : UInt8) (rest : List UInt8) : span b rest ≤ rest.length + 1 := by
  unfold span firstChar
  split
  · simp
  · split
    · split_ifs <;> simp
    · simp
  · split
    · split_ifs <;> simp
    · split_ifs <;> simp
    · simp
  · split
    · split_ifs <;> simp
    · split_ifs <;> simp
    · split_ifs <;> simp
    · simp
  · simp

/-- Induction along the characters and ill-formed places of octets. -/
theorem octets_induction {motive : List UInt8 → Prop} (nil : motive [])
    (cons : ∀ b rest, motive (rest.drop (span b rest - 1)) → motive (b :: rest))
    (octets : List UInt8) : motive octets := by
  induction hn : octets.length using Nat.strong_induction_on generalizing octets with
  | _ n ih =>
    cases octets with
    | nil => exact nil
    | cons b rest =>
        refine cons b rest (ih _ ?_ _ rfl)
        rw [← hn, List.length_drop, List.length_cons]
        omega

theorem decodeWith_some (mark : List Char) (skip : Nat) (octets : List UInt8) :
    decodeWith (some mark) skip octets = some (decodeMarked mark (octets.drop skip)) := by
  suffices ∃ cs, decodeWith (some mark) skip octets = some cs by
    obtain ⟨cs, hcs⟩ := this
    rw [decodeMarked, ← decodeWith_skip, hcs]
    rfl
  induction octets generalizing skip with
  | nil => exact ⟨[], by cases skip <;> rfl⟩
  | cons b rest ih =>
      cases skip with
      | zero =>
          rw [decodeWith]
          cases firstChar b rest with
          | inl p =>
              obtain ⟨cs, hcs⟩ := ih (p.2 - 1)
              exact ⟨p.1 :: cs, by simp only [hcs, Option.map_some]⟩
          | inr n =>
              obtain ⟨cs, hcs⟩ := ih (n - 1)
              exact ⟨mark ++ cs, by simp only [hcs, Option.map_some, Option.bind_some]⟩
      | succ skip => exact ih skip

theorem decodeMarked_cons (mark : List Char) (b : UInt8) (rest : List UInt8) :
    decodeMarked mark (b :: rest) =
      piece mark b rest ++ decodeMarked mark (rest.drop (span b rest - 1)) := by
  rw [decodeMarked, decodeWith, piece, span]
  cases firstChar b rest <;>
  · simp only [decodeWith_some]
    rfl

theorem decode?_cons (b : UInt8) (rest : List UInt8) :
    decode? (b :: rest) =
      match firstChar b rest with
      | .inl (c, n) => (decode? (rest.drop (n - 1))).map (c :: ·)
      | .inr _ => none := by
  rw [decode?, decodeWith]
  cases firstChar b rest with
  | inl p => exact congrArg (Option.map (p.1 :: ·)) (decodeWith_skip none (p.2 - 1) rest)
  | inr n => rfl

/-- Octets may be cut behind a text. -/
theorem decodeMarked_encode_append (mark cs : List Char) (octets : List UInt8) :
    decodeMarked mark (encode cs ++ octets) = cs ++ decodeMarked mark octets := by
  induction cs with
  | nil => rfl
  | cons c cs ih =>
      obtain ⟨b, bs, hencode, hfirst⟩ := encode_cons c cs
      rw [hencode, List.cons_append, decodeMarked_cons, piece, span, List.append_assoc, hfirst]
      show [c] ++ decodeMarked mark ((bs ++ _).drop bs.length) = _
      rw [List.drop_left, ih]
      rfl

/-- What is read first does not depend on octets behind one that continues no character. -/
theorem firstChar_append {d : UInt8} (hd : isContinuation d = false) (b : UInt8)
    (before rest : List UInt8) : firstChar b (before ++ d :: rest) = firstChar b before := by
  have hsecond : isSecond b d = false := by
    rw [isSecond, hd, Bool.false_and]
  unfold firstChar
  split
  · rfl
  · rcases before with _ | ⟨x, before⟩
    · simp [hd]
    · rfl
  · rcases before with _ | ⟨x, _ | ⟨y, before⟩⟩
    · cases rest <;> simp [hsecond]
    · cases hx : isSecond b x <;> simp [hx, hd]
    · rfl
  · rcases before with _ | ⟨x, _ | ⟨y, _ | ⟨z, before⟩⟩⟩
    · rcases rest with _ | ⟨e, _ | ⟨f, rest⟩⟩ <;> simp [hsecond]
    · rcases rest with _ | ⟨e, rest⟩ <;> cases hx : isSecond b x <;> simp [hx, hd]
    · simp [hd]
    · rfl
  · rfl

/-- Octets may be cut before one that continues no character. -/
theorem decodeMarked_append (mark : List Char) {d : UInt8} (hd : isContinuation d = false)
    (before rest : List UInt8) :
    decodeMarked mark (before ++ d :: rest) =
      decodeMarked mark before ++ decodeMarked mark (d :: rest) := by
  induction before using octets_induction with
  | nil => rfl
  | cons b before ih =>
      have hfirst := firstChar_append hd b before rest
      have hsame : span b (before ++ d :: rest) = span b before := by rw [span, hfirst, span]
      have hpiece : piece mark b (before ++ d :: rest) = piece mark b before := by
        rw [piece, hfirst, piece]
      have hspan : span b before - 1 ≤ before.length := Nat.sub_le_of_le_add (span_le b before)
      rw [List.cons_append, decodeMarked_cons, decodeMarked_cons, hsame, hpiece,
        List.drop_append_of_le_length hspan, ih, List.append_assoc]

end EscapeRoom.Text.Utf8
