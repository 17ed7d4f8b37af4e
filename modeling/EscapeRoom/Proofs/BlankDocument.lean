import EscapeRoom.Proofs.VerdictShape
import EscapeRoom.Proofs.Yaml.EmptyDocument
import Mathlib.Control.Monad.Basic

/-!
# When a blank document is an empty one

A text whose lines are blank, comments or bare `---` is taken for an empty manifest without being
read.  Blank means more there than it does in a YAML text: a `---` behind spaces, a second `---`, a
tab or a no-break space make the document something else, and the two readings part.  A line is also
less there: only a line feed ends it, so that a comment can hide what follows another line break.

* `isHollow_of_isBlankLine` — what a blank line can hold.
* `ofDocument_eq_empty_iff` — blank lines, read as a document.
* `ofText_eq_ofDocument_iff` — the texts on which the readings agree.
-/

namespace EscapeRoom

open Yaml

namespace Text

/-- Trimming takes only blanks away behind the first character that is not blank. -/
theorem trim_of_head {c : Char} {before : List Char} (rest : List Char)
    (hbefore : ∀ b ∈ before, isBlank b = true) (hc : isBlank c = false) :
    ∃ more after, trim (before ++ c :: rest) = c :: more ∧ rest = more ++ after ∧
      ∀ b ∈ after, isBlank b = true := by
  have hleft : trimLeft (before ++ c :: rest) = c :: rest := by
    rw [trimLeft, List.dropWhile_append_of_pos hbefore]
    exact List.dropWhile_cons_of_neg (Bool.eq_false_iff.1 hc)
  have hright : trimRight (c :: rest) ++ (c :: rest).rtakeWhile isBlank = c :: rest :=
    List.rdropWhile_append_rtakeWhile
  have hsome : trimRight (c :: rest) ≠ [] := by
    intro hnone
    have hblank : isBlank c = true := List.rdropWhile_eq_nil_iff.1 hnone c List.mem_cons_self
    exact Bool.false_ne_true (hc.symm.trans hblank)
  obtain ⟨d, more, hmore⟩ := List.exists_cons_of_ne_nil hsome
  rw [hmore, List.cons_append] at hright
  obtain ⟨hhead, hrest⟩ := List.cons.inj hright
  refine ⟨more, (c :: rest).rtakeWhile isBlank, ?_, hrest.symm, fun b hb => ?_⟩
  · rw [trim, hleft, hmore, hhead]
  · exact List.mem_rtakeWhile_imp hb

end Text

namespace Manifest

/-- A gap is blank. -/
theorem isBlank_of_isGap {tabs : Bool} {c : Char} (h : isGap tabs c = true) :
    Text.isBlank c = true := by
  rcases Bool.or_eq_true_iff.1 h with hspace | htab
  · rw [eq_of_beq hspace]
    decide
  · rw [eq_of_beq (Bool.and_eq_true_iff.1 htab).2]
    decide

/-- A blank line holds no more than a comment, a hyphen or something blank, and nothing but
something blank behind a `---`. -/
theorem isHollow_of_isBlankLine {line : List Char} (h : isBlankLine line = true) :
    IsHollow line := by
  have hline : (Text.trim line).isEmpty = true ∨ (Text.trim line).head? = some '#' ∨
      Text.trim line = ['-', '-', '-'] := by
    simpa [isBlankLine, or_assoc] using h
  constructor
  · intro c hc
    cases hblank : Text.isBlank c with
    | true => exact .inr rfl
    | false =>
        left
        obtain ⟨before, rest, hbefore, hsplit, hcomment⟩ := exists_of_head?_lineContent hc
        obtain ⟨more, after, htrim, -, -⟩ :=
          Text.trim_of_head rest (fun b hb => isBlank_of_isGap (hbefore b hb)) hblank
        rw [hsplit, htrim] at hline
        rcases hline with hnone | hhash | hdashes
        · cases hnone
        · exact absurd (Option.some.inj hhash) hcomment
        · exact (List.cons.inj hdashes).1
  · rintro more rfl c hc
    obtain ⟨body, after, htrim, hrest, hblank⟩ :=
      @Text.trim_of_head '-' [] ('-' :: '-' :: more) nofun rfl
    rw [List.nil_append] at htrim
    rw [htrim] at hline
    rcases hline with hnone | hhash | hdashes
    · cases hnone
    · cases hhash
    · rw [(List.cons.inj hdashes).2] at hrest
      have hmore : more = after := by simpa using hrest
      refine hblank c (hmore ▸ (lineContent_sublist true more).subset ?_)
      exact List.mem_of_mem_head? hc

/-- A document is read as the empty manifest if its tree stands for nothing. -/
theorem ofDocument_eq_empty_iff {text : String} :
    ofDocument text = .ok empty ↔ ∃ t, Tree.ofText text.toList = .ok t ∧ t.IsVoid := by
  rw [ofDocument_eq_ok_iff]
  refine exists_congr fun t => and_congr_right fun _ => ?_
  constructor
  · intro hempty
    cases t with
    | null => exact .inl rfl
    | mapping entries =>
        have hnil : entries = .nil := congrArg Manifest.entries (Except.ok.inj hempty)
        exact .inr (by rw [hnil])
    | bool | number | string | sequence | tagged => cases hempty
  · rintro (rfl | rfl)
    · rfl
    · rfl

/-- Lines that hold little are read as the empty manifest if they are an empty document. -/
theorem ofDocument_of_isHollow {text : String}
    (h : ∀ line ∈ Yaml.lines text.toList, IsHollow line) :
    ofDocument text = .ok empty ↔ isEmptyDocument text.toList = true := by
  obtain ⟨hempty, hsome⟩ := Tree.ofText_of_isHollow h
  rw [ofDocument_eq_empty_iff]
  constructor
  · rintro ⟨t, ht, hvoid⟩
    by_contra hother
    exact hsome (Bool.eq_false_iff.2 hother) t ht hvoid
  · intro hdocument
    exact ⟨.null, hempty hdocument, .inl rfl⟩

/-- An empty document is the empty manifest, in whatever way it is read. -/
theorem ofText_of_isEmptyDocument {text : String} (h : isEmptyDocument text.toList = true) :
    ofDocument text = .ok empty ∧ ofText text = .ok empty := by
  have hread : ofDocument text = .ok empty :=
    (ofDocument_of_isHollow (isHollow_of_isEmptyDocument h)).2 h
  refine ⟨hread, ?_⟩
  rw [ofText]
  split
  · rfl
  · exact hread

/-- **A text that is taken for a blank document is an empty one, or it is misread.**  A text is the
manifest that its document is if it is not taken for a blank document or if its document is empty;
and, as long as no comment hides what follows a line break, in no other case. -/
theorem ofText_eq_ofDocument_iff (text : String) :
    (isBlankDocument text = false ∨ isEmptyDocument text.toList = true →
      ofText text = ofDocument text) ∧
    ((isBlankDocument text = true → ∀ line ∈ Yaml.lines text.toList, isBlankLine line = true) →
      (ofText text = ofDocument text ↔
        isBlankDocument text = false ∨ isEmptyDocument text.toList = true)) := by
  have hagree : isBlankDocument text = false ∨ isEmptyDocument text.toList = true →
      ofText text = ofDocument text := by
    rintro (hblank | hempty)
    · exact if_neg (Bool.eq_false_iff.1 hblank)
    · obtain ⟨hdocument, htext⟩ := ofText_of_isEmptyDocument hempty
      rw [hdocument, htext]
  refine ⟨hagree, fun hwhole => ⟨fun hsame => ?_, hagree⟩⟩
  cases hblank : isBlankDocument text with
  | false => exact .inl rfl
  | true =>
      have htaken : ofText text = .ok empty := if_pos hblank
      have hhollow : ∀ line ∈ Yaml.lines text.toList, IsHollow line := fun line hline =>
        isHollow_of_isBlankLine (hwhole hblank line hline)
      exact .inr ((ofDocument_of_isHollow hhollow).1 (hsame.symm.trans htaken))

/-- A comment and a `---`: blank, and an empty document. -/
theorem ofText_eq_ofDocument_below_comment :
    (∀ line ∈ Yaml.lines "# nothing yet\n---\n".toList, isBlankLine line = true) ∧
      ofText "# nothing yet\n---\n" = ofDocument "# nothing yet\n---\n" :=
  have hlines : ∀ line ∈ Yaml.lines "# nothing yet\n---\n".toList, isBlankLine line = true := by
    decide
  ⟨hlines, ((ofText_eq_ofDocument_iff _).2 fun _ => hlines).2 (.inr (by decide))⟩

/-- Behind a space, the three hyphens are a string. -/
theorem indented_marker_taken_for_blank :
    ofText " ---" = .ok empty ∧ ofDocument " ---" = .error (.notMapping .string) := by
  decide +kernel

/-- Behind a carriage return a comment has ended, and a mapping may begin. -/
example : ofText "# a\rkind: Pod" = .ok empty ∧
    ofDocument "# a\rkind: Pod" = .ok ⟨.cons (.string "kind") (.string "Pod") .nil⟩ := by
  decide +kernel

end Manifest

end EscapeRoom
