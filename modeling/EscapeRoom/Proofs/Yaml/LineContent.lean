import EscapeRoom.Proofs.Yaml.Lines

/-!
# What stands on a line

What a line means on its own is what is left of it behind its spaces, unless that is a comment.  A
text can be an empty document only as far as nothing is left of its lines, but for one `---` at the
begin of a line.

* `lineContent` — what stands on a line.
* `isEmptyLine`, `isMarkerLine`, `isEmptyDocument` — nothing but empty lines, around at most one
  `---`.
* `IsHollow` — a line that holds little, and so does its front.
-/

namespace EscapeRoom.Yaml

/-! ### Fronts of lines, and what follows lines -/

section
variable {p : Char → Bool} {front line tail : List Char}

theorem dropWhile_front (h : front <+: line) :
    front.dropWhile p <+: line.dropWhile p := by
  obtain ⟨more, rfl⟩ := h
  rw [List.dropWhile_append]
  split
  · rename_i hnone
    rw [List.isEmpty_iff.1 hnone]
    exact List.nil_prefix
  · exact List.prefix_append _ _

theorem mem_head?_of_front (h : front <+: line) :
    ∀ c ∈ front.head?, c ∈ line.head? := by
  obtain ⟨more, rfl⟩ := h
  cases front with
  | nil => nofun
  | cons d front => exact fun _ hc => hc

theorem dropWhile_append_tail (htail : ∀ x ∈ tail.head?, p x = false) :
    (line ++ tail).dropWhile p = line.dropWhile p ++ tail := by
  rw [List.dropWhile_append]
  split
  · rename_i hnone
    rw [List.isEmpty_iff.1 hnone]
    cases tail with
    | nil => rfl
    | cons x tail => exact List.dropWhile_cons_of_neg (by rw [htail x rfl]; decide)
  · rfl

theorem head?_append_ne {x : Char} (hline : line.head? ≠ some x)
    (htail : ∀ b ∈ tail.head?, b ≠ x) : (line ++ tail).head? ≠ some x := by
  cases line with
  | nil => exact fun hhead => htail x hhead rfl
  | cons y line => exact hline

end

/-! ### What stands on a line -/

/-- The characters in front of what stands on a line: spaces, and tabs where they may stand. -/
def isGap (tabs : Bool) (c : Char) : Bool := c == ' ' || (tabs && c == '\t')

/-- What stands on a line behind its gap; nothing if that is a comment. -/
def lineContent (tabs : Bool) (line : List Char) : List Char :=
  let body := line.dropWhile (isGap tabs)
  if body.head? == some '#' then [] else body

/-- Whether there is nothing on a line but spaces and a comment. -/
def isEmptyLine (line : List Char) : Bool := (lineContent false line).isEmpty

/-- Whether a line is a `---`, with nothing behind it but spaces, tabs and a comment. -/
def isMarkerLine : List Char → Bool
  | '-' :: '-' :: '-' :: more => atSpaceOrEnd more && (lineContent true more).isEmpty
  | _ => false

/-- Whether lines are empty, but for one marker line. -/
def isEmptyBody (body : List (List Char)) : Bool :=
  match body.dropWhile isEmptyLine with
  | [] => true
  | line :: more => isMarkerLine line && more.all isEmptyLine

/-- Whether a text holds nothing but empty lines, around at most one `---`. -/
def isEmptyDocument (cs : List Char) : Bool := cs.all isAllowed && isEmptyBody (lines cs)

theorem lineContent_sublist (tabs : Bool) (line : List Char) :
    (lineContent tabs line).Sublist line := by
  rw [lineContent]
  split
  · exact List.nil_sublist line
  · exact List.dropWhile_sublist _

/-- What stands on a line begins with no gap. -/
theorem isGap_of_lineContent {tabs : Bool} {line body : List Char} {c : Char}
    (h : lineContent tabs line = c :: body) : isGap tabs c = false := by
  rw [lineContent] at h
  split at h
  · cases h
  · have hhead := List.head?_dropWhile_not (isGap tabs) line
    rwa [h] at hhead

/-- What stands on a line begins behind a gap, and with no comment. -/
theorem exists_of_head?_lineContent {tabs : Bool} {line : List Char} {c : Char}
    (h : c ∈ (lineContent tabs line).head?) :
    ∃ before rest, (∀ b ∈ before, isGap tabs b = true) ∧ line = before ++ c :: rest ∧ c ≠ '#' := by
  rw [lineContent] at h
  split at h
  · cases h
  · rename_i hcomment
    obtain ⟨rest, hrest⟩ : ∃ rest, line.dropWhile (isGap tabs) = c :: rest := by
      cases hbody : line.dropWhile (isGap tabs) with
      | nil =>
          rw [hbody] at h
          cases h
      | cons d rest =>
          rw [hbody] at h
          cases h
          exact ⟨rest, rfl⟩
    refine ⟨line.takeWhile (isGap tabs), rest, fun b hb => List.mem_takeWhile_imp hb, ?_, ?_⟩
    · rw [← hrest, List.takeWhile_append_dropWhile]
    · rintro rfl
      exact hcomment (by rw [hrest]; rfl)

/-- What stands on the front of a line is the front of what stands on the line. -/
theorem lineContent_front (tabs : Bool) {front line : List Char} (h : front <+: line) :
    lineContent tabs front <+: lineContent tabs line := by
  have hbody := dropWhile_front (p := isGap tabs) h
  simp only [lineContent]
  generalize front.dropWhile (isGap tabs) = body at hbody
  generalize line.dropWhile (isGap tabs) = whole at hbody
  cases body with
  | nil => exact List.nil_prefix
  | cons c body =>
      obtain ⟨more, rfl⟩ := hbody
      show (if (some c == some '#') = true then [] else c :: body) <+:
        if (some c == some '#') = true then [] else c :: (body ++ more)
      by_cases hc : (some c == some '#') = true
      · rw [if_pos hc]
        exact List.nil_prefix
      · rw [if_neg hc, if_neg hc]
        exact ⟨more, rfl⟩

/-- A marker line has a marker at its begin. -/
theorem exists_of_isMarkerLine {line : List Char} (h : isMarkerLine line = true) :
    ∃ after, line = '-' :: '-' :: '-' :: after ∧ atSpaceOrEnd after = true ∧
      lineContent true after = [] := by
  unfold isMarkerLine at h
  split at h
  · rename_i after
    obtain ⟨hend, hnone⟩ := Bool.and_eq_true_iff.1 h
    exact ⟨after, rfl, hend, List.isEmpty_iff.1 hnone⟩
  · cases h

/-! ### Lines that hold little -/

/-- A line on which nothing stands but a comment, a hyphen or something blank, and nothing but
something blank behind a `---`. -/
structure IsHollow (line : List Char) : Prop where
  content : ∀ c ∈ (lineContent false line).head?, c = '-' ∨ Text.isBlank c = true
  marker : ∀ more, line = '-' :: '-' :: '-' :: more →
    ∀ c ∈ (lineContent true more).head?, Text.isBlank c = true

theorem IsHollow.of_front {front line : List Char} (h : IsHollow line) (hfront : front <+: line) :
    IsHollow front where
  content c hc := h.content c (mem_head?_of_front (lineContent_front false hfront) c hc)
  marker more hmore c hc := by
    obtain ⟨rest, rfl⟩ := hfront
    refine h.marker (more ++ rest) (by rw [hmore]; rfl) c ?_
    exact mem_head?_of_front (lineContent_front true (List.prefix_append more rest)) c hc

/-- A byte order mark is more than such a line may hold. -/
theorem IsHollow.head?_ne {line : List Char} (h : IsHollow line) :
    line.head? ≠ some '\ufeff' := by
  intro hhead
  obtain ⟨rest, rfl⟩ : ∃ rest, line = '\ufeff' :: rest := by
    cases line with
    | nil => cases hhead
    | cons c rest => exact ⟨rest, by rw [Option.some.inj hhead]⟩
  rcases h.content '\ufeff' rfl with hhyphen | hblank
  · exact absurd hhyphen (by decide)
  · exact absurd hblank (by decide)

/-- The lines of an empty document hold little. -/
theorem isHollow_of_isEmptyDocument {cs : List Char} (h : isEmptyDocument cs = true) :
    ∀ line ∈ lines cs, IsHollow line := by
  have hempty : ∀ line, isEmptyLine line = true → IsHollow line := by
    intro line hline
    have hnone : lineContent false line = [] := List.isEmpty_iff.1 hline
    refine ⟨fun c hc => ?_, fun more hmore => ?_⟩
    · rw [hnone] at hc
      cases hc
    · rw [hmore] at hnone
      cases hnone
  have hmarker : ∀ line, isMarkerLine line = true → IsHollow line := by
    intro line hline
    obtain ⟨after, rfl, -, hnone⟩ := exists_of_isMarkerLine hline
    refine ⟨?_, ?_⟩
    · rintro _ ⟨⟩
      exact .inl rfl
    · rintro _ ⟨⟩ c hc
      rw [hnone] at hc
      cases hc
  have hbody : isEmptyBody (lines cs) = true := (Bool.and_eq_true_iff.1 h).2
  rw [isEmptyBody] at hbody
  intro line hline
  rw [← List.takeWhile_append_dropWhile (p := isEmptyLine) (l := lines cs)] at hline
  rcases List.mem_append.1 hline with hline | hline
  · exact hempty line (List.mem_takeWhile_imp hline)
  · split at hbody
    · rename_i hnil
      rw [hnil] at hline
      cases hline
    · rename_i first more hsplit
      obtain ⟨hfirst, hmore⟩ := Bool.and_eq_true_iff.1 hbody
      rw [hsplit] at hline
      rcases List.mem_cons.1 hline with rfl | hline
      · exact hmarker _ hfirst
      · exact hempty line (List.all_eq_true.1 hmore line hline)

end EscapeRoom.Yaml
