import EscapeRoom.Files.Path
import EscapeRoom.Proofs.Words

/-!
# Siblings of a path

A path with a file name leads through the names of its directory to that name.  With another ending
it leads through the same names to another name.

* `Path.segments_ofSegments` — the segments of a path that is put together from them.
* `Path.stem_cases`, `Path.siblingName_ne` — a name with another ending is another name.
* `Path.IsEntry` — a path seen as a name in a directory.
* `Path.isEntry_of_fileName?` — a path with a file name, and its sibling.
-/

namespace EscapeRoom.Path

/-! ### Segments -/

section
variable (p : Path)

variable {p} in
theorem slash_not_mem {s : String} (h : s ∈ p.segments) : '/' ∉ s.toList := by
  obtain ⟨piece, hpiece, rfl⟩ := List.mem_map.1 h
  intro hslash
  rw [String.toList_ofList] at hslash
  have hnot := Text.not_sep_of_mem_splitOn hpiece '/' hslash
  exact Bool.noConfusion hnot

/-- A relative path does not begin with an empty segment, unless it is empty itself. -/
theorem head?_segments (hrelative : p.isAbsolute = false) (hne : p.text ≠ "") :
    p.segments.head? ≠ some "" := by
  intro hhead
  rw [segments, hrelative] at hhead
  cases htext : p.text.toList with
  | nil => exact hne (String.toList_eq_nil_iff.1 htext)
  | cons c cs =>
      have hslash : c ≠ '/' := by
        rintro rfl
        rw [isAbsolute, htext] at hrelative
        exact Bool.noConfusion hrelative
      obtain ⟨piece, pieces, hpieces⟩ := List.exists_cons_of_ne_nil
        (Text.splitOn_ne_nil (· == '/') cs)
      have hsplit : Text.splitOn (· == '/') (c :: cs) = (c :: piece) :: pieces := by
        rw [Text.splitOn, hpieces]
        simp [hslash]
      simp [htext, hsplit] at hhead

end

/-- Whether segments can be put together and told apart again: none holds a slash, and those of a
relative path do not begin with an empty one. -/
structure Joinable (absolute : Bool) (segs : List String) : Prop where
  no_slash : ∀ s ∈ segs, '/' ∉ s.toList
  head : absolute = false → segs.head? ≠ some ""

/-- Text that is put together from segments is cut into these segments again. -/
theorem segments_ofSegments {absolute : Bool} {segs : List String} (h : Joinable absolute segs)
    (hne : segs ≠ []) :
    (ofSegments absolute segs).isAbsolute = absolute ∧
      (ofSegments absolute segs).segments = segs := by
  have hsplit : Text.splitOn (· == '/') (['/'].intercalate (segs.map String.toList)) =
      segs.map String.toList := by
    rw [Text.splitOn_eq_splitOnP]
    refine List.splitOn_intercalate '/' ?_ (by simpa using hne)
    intro cs hcs
    obtain ⟨s, hs, rfl⟩ := List.mem_map.1 hcs
    exact h.no_slash s hs
  have hback : (segs.map String.toList).map String.ofList = segs := by
    simp [Function.comp_def]
  have htext : (ofSegments absolute segs).text.toList =
      (if absolute then ['/'] else []) ++ ['/'].intercalate (segs.map String.toList) := by
    rw [ofSegments, String.toList_append, String.toList_intercalate]
    cases absolute <;> rfl
  cases absolute with
  | true =>
      have habsolute : (ofSegments true segs).isAbsolute = true := by
        rw [isAbsolute, htext]
        rfl
      refine ⟨habsolute, ?_⟩
      rw [segments, habsolute, htext]
      show (Text.splitOn (· == '/') (['/'].intercalate (segs.map String.toList))).map
        String.ofList = segs
      rw [hsplit, hback]
  | false =>
      have hrelative : (ofSegments false segs).isAbsolute = false := by
        obtain ⟨s, rest, rfl⟩ := List.exists_cons_of_ne_nil hne
        have hs : s.toList ≠ [] := fun hnil => h.head rfl (by
          rw [String.toList_eq_nil_iff.1 hnil]
          rfl)
        obtain ⟨c, cs, hcs⟩ := List.exists_cons_of_ne_nil hs
        have hc : c ≠ '/' := by
          rintro rfl
          exact h.no_slash s List.mem_cons_self (hcs ▸ List.mem_cons_self)
        -- the text begins with the first character of the first segment
        have hfirst : (['/'].intercalate ((s :: rest).map String.toList)).head? = some c := by
          cases rest with
          | nil => simp [hcs]
          | cons t ts => simp [hcs]
        rw [isAbsolute, htext]
        show ((['/'].intercalate ((s :: rest).map String.toList)).head? == some '/') = false
        rw [hfirst]
        simpa using hc
      refine ⟨hrelative, ?_⟩
      rw [segments, hrelative, htext]
      show (Text.splitOn (· == '/') (['/'].intercalate (segs.map String.toList))).map
        String.ofList = segs
      rw [hsplit, hback]

/-- Whether a segment leads somewhere. -/
def leads (segment : String) : Bool := !isIdle segment

/-! ### The core of a path -/

theorem isPrefix_trimEnd (segs : List String) : trimEnd segs <+: segs :=
  List.rdropWhile_prefix isIdle segs

theorem filter_trimEnd (segs : List String) :
    (trimEnd segs).filter leads = segs.filter leads := by
  show (segs.rdropWhile isIdle).filter leads = _
  induction segs using List.reverseRecOn with
  | nil => rfl
  | append_singleton segs s ih =>
      rw [List.rdropWhile_concat]
      split
      · rename_i hidle
        rw [ih, List.filter_append, List.filter_cons_of_neg (by simp [leads, hidle])]
        simp
      · rfl

section
variable (absolute : Bool) (segs : List String)

theorem isPrefix_core : core absolute segs <+: segs := by
  rw [core.eq_def]
  split
  · split
    · exact isPrefix_trimEnd _
    · exact List.prefix_cons_inj _ |>.2 (isPrefix_trimEnd _)
  · exact isPrefix_trimEnd _

/-- What is cut off leads nowhere. -/
theorem filter_core : (core absolute segs).filter leads = segs.filter leads := by
  rw [core.eq_def]
  split
  · split
    · exact filter_trimEnd _
    · rw [List.filter_cons, List.filter_cons, filter_trimEnd]
  · exact filter_trimEnd _

/-- The last segment of the core is a name or the `.` in front. -/
theorem getLast?_core {s : String} (h : (core absolute segs).getLast? = some s) (hs : s ≠ ".") :
    leads s = true := by
  have htrimmed : ∀ {l : List String}, (trimEnd l).getLast? = some s → leads s = true := by
    intro l hl
    obtain ⟨hne, hlast⟩ := List.mem_getLast?_eq_getLast hl
    have hnot := List.rdropWhile_last_not isIdle l hne
    rw [leads, hlast, Bool.not_eq_true']
    exact Bool.eq_false_iff.2 hnot
  rw [core.eq_def] at h
  split at h
  · split at h
    · exact htrimmed h
    · rename_i rest _
      cases hrest : trimEnd rest with
      | nil =>
          rw [hrest] at h
          exact absurd (Option.some.inj h).symm hs
      | cons t ts =>
          rw [hrest, List.getLast?_cons_cons, ← hrest] at h
          exact htrimmed h
  · exact htrimmed h

end

/-! ### Names and endings -/

/-- The name with another ending. -/
def siblingName (name extension : String) : String := stem name ++ "." ++ extension

/-- A name is its stem, or its stem with an ending that holds no point. -/
theorem stem_cases (name : String) :
    stem name = name ∨ ∃ ending : List Char, '.' ∉ ending ∧
      name.toList = (stem name).toList ++ '.' :: ending := by
  have hsplit := List.takeWhile_append_dropWhile (p := (· != '.')) (l := name.toList.reverse)
  rw [stem]
  split
  · exact .inl rfl
  · rename_i hne
    right
    refine ⟨(name.toList.reverse.takeWhile (· != '.')).reverse, ?_, ?_⟩
    · intro hmem
      have hpoint := List.mem_takeWhile_imp (List.mem_reverse.1 hmem)
      exact absurd hpoint (by decide)
    · cases hdropped : name.toList.reverse.dropWhile (· != '.') with
      | nil =>
          rw [hdropped] at hne
          exact absurd rfl hne
      | cons c cs =>
          have hc : c = '.' := by
            have hhead := List.head?_dropWhile_not (· != '.') name.toList.reverse
            rw [hdropped] at hhead
            simpa using hhead
          rw [hdropped, hc] at hsplit
          rw [String.toList_ofList, List.drop_one, List.tail_cons]
          calc name.toList
              = (name.toList.reverse.takeWhile (· != '.') ++ '.' :: cs).reverse := by
                rw [hsplit, List.reverse_reverse]
            _ = cs.reverse ++ '.' :: (name.toList.reverse.takeWhile (· != '.')).reverse := by
                rw [List.reverse_append, List.reverse_cons, List.append_assoc]
                rfl

/-- A name with an ending that holds a point is never the name that it was made from: a name has no
point after the last one. -/
theorem siblingName_ne {name extension : String} (h : '.' ∈ extension.toList) :
    siblingName name extension ≠ name := by
  intro hsame
  have hlist : (stem name).toList ++ '.' :: extension.toList = name.toList := by
    rw [← congrArg String.toList hsame]
    simp [siblingName]
  rcases stem_cases name with hstem | ⟨ending, hending, hname⟩
  · rw [hstem] at hlist
    have hlength := congrArg List.length hlist
    simp at hlength
  · rw [hname, List.append_cancel_left_eq, List.cons.injEq] at hlist
    exact hending (hlist.2 ▸ h)

theorem stem_ne_empty {name : String} (h : name ≠ "") : stem name ≠ "" := by
  rw [stem]
  split
  · exact h
  · rename_i hne
    intro hempty
    rw [String.ofList_eq_empty_iff, List.reverse_eq_nil_iff] at hempty
    exact hne (List.isEmpty_iff.2 hempty)

theorem toList_siblingName (name extension : String) :
    (siblingName name extension).toList = (stem name).toList ++ '.' :: extension.toList := by
  simp [siblingName]

/-- An ending that makes names of other names: it holds a point and no slash. -/
structure IsEnding (extension : String) : Prop where
  point : '.' ∈ extension.toList
  no_slash : '/' ∉ extension.toList

namespace IsEnding

variable {extension : String} (h : IsEnding extension) {name : String}
include h

theorem slash_not_mem_siblingName (hname : '/' ∉ name.toList) :
    '/' ∉ (siblingName name extension).toList := by
  rw [toList_siblingName, List.mem_append, List.mem_cons, not_or, not_or]
  refine ⟨fun hstem => hname ?_, by decide, h.no_slash⟩
  rcases stem_cases name with hsame | ⟨ending, -, hsplit⟩
  · rwa [hsame] at hstem
  · rw [hsplit]
    exact List.mem_append_left _ hstem

theorem leads_siblingName : leads (siblingName name extension) = true := by
  have hlong : 2 ≤ (siblingName name extension).toList.length := by
    have hpos := List.length_pos_of_mem h.point
    rw [toList_siblingName, List.length_append, List.length_cons]
    omega
  have hempty : siblingName name extension ≠ "" := fun hsame => by
    rw [hsame] at hlong
    exact absurd hlong (by decide)
  have hdot : siblingName name extension ≠ "." := fun hsame => by
    rw [hsame] at hlong
    exact absurd hlong (by decide)
  simp [leads, isIdle, hempty, hdot]

theorem siblingName_ne_up (hname : name ≠ "") : siblingName name extension ≠ ".." := by
  intro hsame
  have hstem : 0 < (stem name).toList.length := by
    rw [List.length_pos_iff, ne_eq, String.toList_eq_nil_iff]
    exact stem_ne_empty hname
  have hpos := List.length_pos_of_mem h.point
  have hlength := congrArg List.length (toList_siblingName name extension)
  rw [hsame, List.length_append, List.length_cons] at hlength
  have htwo : "..".toList.length = 2 := by decide
  omega

end IsEnding

/-! ### Entries of a directory -/

/-- Whether a path leads through the names of a directory to a name in it. -/
structure IsEntry (p : Path) (absolute : Bool) (directory : List String) (name : String) :
    Prop where
  isAbsolute : p.isAbsolute = absolute
  names : p.names = directory ++ [name]
  name_ne_up : name ≠ ".."

section
variable {p : Path} {name : String}

/-- A path with a file name: its core ends with it. -/
theorem core_of_fileName? (h : p.fileName? = some name) :
    (∃ init, core p.isAbsolute p.segments = init ++ [name]) ∧ leads name = true ∧ name ≠ ".." := by
  obtain ⟨hlast, hname⟩ := Option.filter_eq_some_iff.1 h
  rw [Bool.and_eq_true, bne_iff_ne, bne_iff_ne] at hname
  exact ⟨List.getLast?_eq_some_iff.1 hlast, getLast?_core _ _ hlast hname.1, hname.2⟩

theorem text_ne_of_fileName? (h : p.fileName? = some name) : p.text ≠ "" := by
  intro htext
  have hempty : (⟨""⟩ : Path).fileName? = none := by decide
  rw [show p = ⟨""⟩ from congrArg mk htext, hempty] at h
  cases h

/-- The first segments of a path with a file name can be put together, with a name behind them. -/
theorem joinable_concat (h : p.fileName? = some name) {init : List String} {last : String}
    (hinit : init <+: p.segments) (hslash : '/' ∉ last.toList) (hlast : last ≠ "") :
    Joinable p.isAbsolute (init ++ [last]) := by
  constructor
  · intro s hs
    rcases List.mem_append.1 hs with hold | hnew
    · exact slash_not_mem (hinit.subset hold)
    · exact List.mem_singleton.1 hnew ▸ hslash
  · intro hrelative hhead
    cases init with
    | nil => exact hlast (Option.some.inj hhead)
    | cons s rest =>
        obtain ⟨others, hothers⟩ := hinit
        refine head?_segments p hrelative (text_ne_of_fileName? h) ?_
        rw [← hothers]
        exact hhead

/-- **A path with a file name is an entry of its directory, and its sibling is another entry of the
same directory.** -/
theorem isEntry_of_fileName? (h : p.fileName? = some name) :
    ∃ directory, p.IsEntry p.isAbsolute directory name ∧
      ∀ extension, IsEnding extension →
        (p.withExtension extension).IsEntry p.isAbsolute directory
          (siblingName name extension) := by
  obtain ⟨⟨init, hcore⟩, hleads, hup⟩ := core_of_fileName? h
  have hwhole : init ++ [name] <+: p.segments := hcore ▸ isPrefix_core p.isAbsolute p.segments
  have hinit : init <+: p.segments := (List.prefix_append init [name]).trans hwhole
  refine ⟨init.filter leads, ⟨rfl, ?_, hup⟩, ?_⟩
  · show p.segments.filter leads = _
    rw [← filter_core p.isAbsolute, hcore, List.filter_append, List.filter_singleton, hleads]
    rfl
  · intro extension hextension
    have hnew : leads (siblingName name extension) = true := hextension.leads_siblingName
    have hslash : '/' ∉ name.toList :=
      slash_not_mem (hwhole.subset (List.mem_append_right _ List.mem_cons_self))
    have hpath : p.withExtension extension =
        ofSegments p.isAbsolute (init ++ [siblingName name extension]) := by
      rw [withExtension, h]
      show ofSegments _ ((core p.isAbsolute p.segments).dropLast ++ _) = _
      rw [hcore, List.dropLast_concat]
      rfl
    have hne : siblingName name extension ≠ "" := fun hempty => by
      rw [hempty] at hnew
      exact absurd hnew (by decide)
    obtain ⟨habsolute, hsegments⟩ := segments_ofSegments
      (joinable_concat h hinit (hextension.slash_not_mem_siblingName hslash) hne) (by simp)
    rw [hpath]
    refine ⟨habsolute, ?_, ?_⟩
    · show (ofSegments _ _).segments.filter leads = _
      rw [hsegments, List.filter_append, List.filter_singleton, hnew]
      rfl
    · apply hextension.siblingName_ne_up
      rintro rfl
      exact absurd hleads (by decide)

end

end EscapeRoom.Path
