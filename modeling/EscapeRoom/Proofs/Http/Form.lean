import EscapeRoom.Http.Form
import EscapeRoom.Proofs.Utf8
import EscapeRoom.Proofs.Words

/-!
# Queries are read back

What is written of a key or value holds none of the characters that separate keys, values and
pairs, and each of its octets is read back.  So every list of pairs is read back from its query,
whatever characters the keys and values have.

* `Form.IsWritten`, `Form.isWritten_writePart` — the characters that are written.
* `Form.readOctets_writeOctet`, `Form.readPart_writePart` — one octet, and a key or value.
* `Form.read_write` — a query.
-/

namespace EscapeRoom.Form

/-! ### Characters that are written -/

/-- A character of ASCII that neither separates anything in a query nor ends the query. -/
def IsWritten (c : Char) : Prop := c.toNat < 0x80 ∧ c ≠ '&' ∧ c ≠ '=' ∧ c ≠ '#'

instance (c : Char) : Decidable (IsWritten c) :=
  inferInstanceAs (Decidable (c.toNat < 0x80 ∧ c ≠ '&' ∧ c ≠ '=' ∧ c ≠ '#'))

theorem isWritten_upper : ∀ n < 16, IsWritten (Digit.upper n) := by decide

theorem isWritten_plain : ∀ n < 256, isPlain (UInt8.ofNat n) = true → IsWritten (Char.ofNat n) := by
  decide +kernel

theorem isWritten_writeOctet (b : UInt8) : ∀ c ∈ writeOctet b, IsWritten c := by
  have hb : b.toNat < 256 := b.toNat_lt
  intro c hc
  rw [writeOctet] at hc
  split_ifs at hc with hplain hspace
  · rw [List.mem_singleton.1 hc]
    exact isWritten_plain b.toNat hb (by rwa [UInt8.ofNat_toNat])
  · rw [List.mem_singleton.1 hc]
    decide
  · simp only [List.mem_cons, List.not_mem_nil, or_false] at hc
    rcases hc with rfl | rfl | rfl
    · decide
    · exact isWritten_upper _ (by omega)
    · exact isWritten_upper _ (by omega)

theorem isWritten_writePart (s : String) : ∀ c ∈ writePart s, IsWritten c := by
  intro c hc
  obtain ⟨b, -, hb⟩ := List.mem_flatMap.1 hc
  exact isWritten_writeOctet b c hb

/-! ### Octets -/

theorem readOctets_cons {b : UInt8} (hplus : b ≠ 0x2B) (hpercent : b ≠ 0x25) (rest : List UInt8) :
    readOctets (b :: rest) = b :: readOctets rest := by
  rw [readOctets.eq_def]
  split
  · rename_i heq
    cases heq
  · rename_i heq
    cases heq
    exact absurd rfl hplus
  · rename_i heq
    cases heq
    rw [if_neg hpercent]
  · rename_i heq
    cases heq
    rfl

theorem readOctets_percent {x y : UInt8} {n : Nat}
    (h : Digit.number? 16 [Char.ofNat x.toNat, Char.ofNat y.toNat] = some n) (rest : List UInt8) :
    readOctets (0x25 :: x :: y :: rest) = .ofNat n :: readOctets rest := by
  rw [readOctets, if_pos rfl, h]
  exact fun hplus => absurd hplus (by decide)

theorem number?_upper {m n : Nat} (hm : m < 16) (hn : n < 16) :
    Digit.number? 16 [Digit.upper m, Digit.upper n] = some (m * 16 + n) := by
  simp [Digit.number?, Digit.append?, Digit.value?_upper m hm, Digit.value?_upper n hn, hm, hn]

/-- Characters of ASCII come back from their octets. -/
theorem ofNat_toNat_ascii {c : Char} (h : c.toNat < 0x80) :
    Char.ofNat (UInt8.ofNat c.toNat).toNat = c := by
  rw [Text.Utf8.toNat_ofNat (by omega), Char.ofNat_toNat]

/-- An octet is read back from its text. -/
theorem readOctets_writeOctet (b : UInt8) (rest : List UInt8) :
    readOctets (Text.Utf8.encode (writeOctet b) ++ rest) = b :: readOctets rest := by
  have hb : b.toNat < 256 := b.toNat_lt
  have hascii : ∀ c ∈ writeOctet b, c.toNat < 0x80 := fun c hc => (isWritten_writeOctet b c hc).1
  rw [writeOctet] at hascii ⊢
  split_ifs at hascii ⊢ with hplain hspace
  · have hchar : (Char.ofNat b.toNat).toNat < 0x80 := hascii _ List.mem_cons_self
    have hoctet : Text.Utf8.encode [Char.ofNat b.toNat] = [b] := by
      have hplainChar : ∀ n < 256, isPlain (UInt8.ofNat n) = true →
          Text.Utf8.encode [Char.ofNat n] = [UInt8.ofNat n] := by decide +kernel
      have h := hplainChar b.toNat hb (by rwa [UInt8.ofNat_toNat])
      rwa [UInt8.ofNat_toNat] at h
    have hplus : b ≠ 0x2B := by
      rintro rfl
      exact absurd hplain (by decide)
    have hpercent : b ≠ 0x25 := by
      rintro rfl
      exact absurd hplain (by decide)
    rw [hoctet]
    exact readOctets_cons hplus hpercent rest
  · rw [hspace]
    show readOctets (0x2B :: rest) = _
    rw [readOctets]
  · have hhigh : b.toNat / 16 < 16 := by omega
    have hlow : b.toNat % 16 < 16 := by omega
    have hhighAscii := (isWritten_upper _ hhigh).1
    have hlowAscii := (isWritten_upper _ hlow).1
    have hoctets : Text.Utf8.encode
        ['%', Digit.upper (b.toNat / 16), Digit.upper (b.toNat % 16)] =
          [0x25, .ofNat (Digit.upper (b.toNat / 16)).toNat,
            .ofNat (Digit.upper (b.toNat % 16)).toNat] := by
      simp only [Text.Utf8.encode, List.flatMap_cons, List.flatMap_nil,
        Text.Utf8.encodeChar_ascii hhighAscii, Text.Utf8.encodeChar_ascii hlowAscii]
      rfl
    have hnumber : b.toNat / 16 * 16 + b.toNat % 16 = b.toNat := by omega
    have hdigits := number?_upper hhigh hlow
    rw [hnumber] at hdigits
    rw [hoctets]
    show readOctets (0x25 :: _ :: _ :: rest) = _
    rw [readOctets_percent (n := b.toNat), UInt8.ofNat_toNat]
    rwa [ofNat_toNat_ascii hhighAscii, ofNat_toNat_ascii hlowAscii]

theorem readOctets_encode (bs : List UInt8) :
    readOctets (Text.Utf8.encode (bs.flatMap writeOctet)) = bs := by
  induction bs with
  | nil => rfl
  | cons b bs ih =>
      rw [List.flatMap_cons, Text.Utf8.encode_append, readOctets_writeOctet, ih]

/-- A key or value is read back. -/
theorem readPart_writePart (s : String) : readPart (writePart s) = s := by
  rw [readPart, writePart, readOctets_encode, Text.Utf8.decodeLossy_encode, String.ofList_toList]

/-! ### Pairs and queries -/

theorem readPair_writePair (p : String × String) : readPair (writePair p) = p := by
  have hkey : ∀ c ∈ writePart p.1, (c != '=') = true := by
    intro c hc
    simpa using (isWritten_writePart p.1 c hc).2.2.1
  have hbefore : (writePair p).takeWhile (· != '=') = writePart p.1 := by
    rw [writePair, List.takeWhile_append_of_pos hkey, List.takeWhile_cons_of_neg (by decide)]
    exact List.append_nil _
  have hafter : (writePair p).dropWhile (· != '=') = '=' :: writePart p.2 := by
    rw [writePair, List.dropWhile_append_of_pos hkey, List.dropWhile_cons_of_neg (by decide)]
  rw [readPair, hbefore, hafter, List.drop_succ_cons, List.drop_zero, readPart_writePart,
    readPart_writePart]

theorem not_amp_writePair (p : String × String) : ∀ c ∈ writePair p, (c == '&') = false := by
  intro c hc
  rw [beq_eq_false_iff_ne]
  rw [writePair, List.mem_append, List.mem_cons] at hc
  rcases hc with hkey | rfl | hvalue
  · exact (isWritten_writePart p.1 c hkey).2.1
  · decide
  · exact (isWritten_writePart p.2 c hvalue).2.1

/-- The pieces of a query are the texts of its pairs. -/
theorem splitOn_writePairs (p : String × String) (ps : List (String × String)) :
    Text.splitOn (· == '&') (writePairs (p :: ps)) = (p :: ps).map writePair := by
  induction ps generalizing p with
  | nil => exact Text.splitOn_of_not_mem (not_amp_writePair p)
  | cons q ps ih =>
      rw [writePairs, Text.splitOn_append_cons rfl, Text.splitOn_of_not_mem (not_amp_writePair p),
        ih q]
      · rfl
      · exact List.cons_ne_nil q ps

theorem writePair_ne_nil (p : String × String) : writePair p ≠ [] := by
  intro h
  rw [writePair] at h
  exact absurd (List.append_eq_nil_iff.1 h).2 (List.cons_ne_nil _ _)

/-- **The pairs of a query are read back.** -/
theorem read_write (pairs : List (String × String)) : read (write pairs) = pairs := by
  have htext : (write pairs).toList = writePairs pairs := String.toList_ofList
  rw [read, htext]
  cases pairs with
  | nil => rfl
  | cons p ps =>
      have hkept : ((p :: ps).map writePair).filter (fun piece => !piece.isEmpty) =
          (p :: ps).map writePair := by
        refine List.filter_eq_self.2 fun piece hpiece => ?_
        obtain ⟨q, -, rfl⟩ := List.mem_map.1 hpiece
        simpa using writePair_ne_nil q
      have hread : ∀ qs : List (String × String), (qs.map writePair).map readPair = qs := by
        intro qs
        rw [List.map_map]
        exact (List.map_congr_left fun q _ => readPair_writePair q).trans (List.map_id qs)
      rw [splitOn_writePairs, hkept, hread]

/-- No character of a query ends it. -/
theorem not_hash_writePairs (pairs : List (String × String)) : ∀ c ∈ writePairs pairs, c ≠ '#' := by
  have hpair : ∀ p : String × String, ∀ c ∈ writePair p, c ≠ '#' := by
    intro p c hc
    rw [writePair, List.mem_append, List.mem_cons] at hc
    rcases hc with hkey | rfl | hvalue
    · exact (isWritten_writePart p.1 c hkey).2.2.2
    · decide
    · exact (isWritten_writePart p.2 c hvalue).2.2.2
  induction pairs with
  | nil => exact fun c hc => absurd hc List.not_mem_nil
  | cons p ps ih =>
      cases ps with
      | nil => exact hpair p
      | cons q ps =>
          intro c hc
          rw [writePairs, List.mem_append, List.mem_cons] at hc
          · rcases hc with hp | rfl | hrest
            · exact hpair p c hp
            · decide
            · exact ih c hrest
          · exact List.cons_ne_nil q ps

end EscapeRoom.Form
