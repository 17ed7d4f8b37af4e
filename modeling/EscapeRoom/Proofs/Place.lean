import EscapeRoom.Proofs.FileSystem
import EscapeRoom.Proofs.Path

/-!
# Places and what operations spare

A place is what identifies a file.  Where a path leads depends on the directories on its way only in
that it may lead nowhere; if it leads somewhere, the names alone say where.  Operations change the
files at few places, and they take no directory away.

* `FileSystem.placeOf`, `FileSystem.fileAt?` — the place that a path names, and the file there.
* `FileSystem.IsTree` — whatever is in a file system lies in a directory.
* `FileSystem.Spares`, `FileSystem.Grows` — what an operation keeps that changes the files at some
  places, or that takes nothing away.
* `FileSystem.Spares.content?` — paths that are read as before.
* `FileSystem.spares_makeDirectories`, `FileSystem.spares_write?`, `FileSystem.spares_rename?` — the
  operations.
-/

namespace EscapeRoom

namespace FileSystem

/-! ### Places -/

/-- The place that a name leads to from another place. -/
def stepTo (place : FilePlace) (name : String) : FilePlace :=
  if name = ".." then above place else place ++ [name]

/-- The place that a path names, whether or not there is a way to it. -/
def placeOf (p : Path) : FilePlace := p.names.foldl stepTo (origin p)

/-- The content of the file at a place. -/
def fileAt? (fs : FileSystem) (place : FilePlace) : Option (List UInt8) :=
  match fs.at? place with
  | some (.file content) => some content
  | _ => none

variable {fs gs : FileSystem} {p : Path}

theorem walk_cons {place q : FilePlace} {name : String} {rest : List String} :
    fs.walk place (name :: rest) = some q ↔
      fs.isDirectory place = true ∧ isName name = true ∧
        fs.walk (stepTo place name) rest = some q := by
  have hnext : (if name = ".." then fs.walk (above place) rest
      else fs.walk (place ++ [name]) rest) = fs.walk (stepTo place name) rest := by
    rw [stepTo]
    split <;> rfl
  rw [walk, hnext]
  cases fs.isDirectory place <;> cases isName name <;> simp

theorem walk_append (place : FilePlace) (xs ys : List String) :
    fs.walk place (xs ++ ys) = (fs.walk place xs).bind fun q => fs.walk q ys := by
  induction xs generalizing place with
  | nil => rfl
  | cons name rest ih =>
      rw [List.cons_append, walk, walk, ih, ih]
      split
      · rfl
      · split <;> rfl

/-- The directories on the way decide only whether a walk arrives, not where. -/
theorem walk_eq_foldl {place q : FilePlace} {names : List String}
    (h : fs.walk place names = some q) : q = names.foldl stepTo place := by
  induction names generalizing place with
  | nil => exact (Option.some.inj h).symm
  | cons name rest ih => exact ih (walk_cons.1 h).2.2

theorem locate_eq {q : FilePlace} (h : fs.locate p = some q) : q = placeOf p := by
  rw [locate] at h
  split at h
  · cases h
  · exact walk_eq_foldl h

/-- What a path leads to when it is read is the file at its place. -/
theorem content?_eq :
    fs.content? p = if p.wantsDirectory then none else (fs.locate p).bind fs.fileAt? := by
  rw [content?, find?]
  cases fs.locate p with
  | none => simp
  | some place =>
      rw [Option.bind_some, Option.bind_some, fileAt?]
      cases fs.at? place with
      | none => simp
      | some node => cases node <;> cases p.wantsDirectory <;> rfl

section
variable {absolute : Bool} {directory : List String} {name : String}

/-- The place of a directory. -/
def directoryPlace (absolute : Bool) (directory : List String) : FilePlace :=
  directory.foldl stepTo (if absolute then ["/"] else [])

theorem placeOf_entry (h : p.IsEntry absolute directory name) :
    placeOf p = directoryPlace absolute directory ++ [name] := by
  rw [placeOf, h.names, List.foldl_append, origin, h.isAbsolute]
  exact if_neg h.name_ne_up

/-- A path that leads to a name in a directory leads through this directory. -/
theorem isDirectory_of_locate (h : p.IsEntry absolute directory name) {q : FilePlace}
    (hq : fs.locate p = some q) :
    fs.isDirectory (directoryPlace absolute directory) = true ∧ isName name = true := by
  rw [locate] at hq
  split at hq
  · cases hq
  · rw [h.names, walk_append, origin, h.isAbsolute] at hq
    obtain ⟨d, hd, hlast⟩ := Option.bind_eq_some_iff.1 hq
    have hplace : d = directoryPlace absolute directory := walk_eq_foldl hd
    subst hplace
    exact ⟨(walk_cons.1 hlast).1, (walk_cons.1 hlast).2.1⟩

end

/-! ### Trees -/

/-- Whatever is in a file system lies in a directory, under a name. -/
def IsTree (fs : FileSystem) : Prop :=
  ∀ directory name, (fs.at? (directory ++ [name])).isSome = true →
    isTop (directory ++ [name]) = false → fs.isDirectory directory = true ∧ isName name = true

theorem isTop_concat (directory : FilePlace) {name : String} (h : name ≠ "/") :
    isTop (directory ++ [name]) = false := by
  have hne : directory ++ [name] ≠ [] := List.concat_ne_nil _ _
  have hroot : directory ++ [name] ≠ [] ++ ["/"] := fun hsame =>
    h (List.singleton_inj.1 (List.append_inj' hsame rfl).2)
  rw [List.nil_append] at hroot
  rw [isTop, beq_eq_false_iff_ne.2 hne, beq_eq_false_iff_ne.2 hroot]
  rfl

theorem isTree_empty : empty.IsTree := by
  intro directory name hsome htop
  rw [at?, htop] at hsome
  exact Bool.noConfusion hsome

theorem isSome_at?_of_isDirectory {place : FilePlace} (h : fs.isDirectory place = true) :
    (fs.at? place).isSome = true := by
  rw [isDirectory, beq_iff_eq] at h
  rw [h]
  rfl

theorem isDirectory_of_isTop {place : FilePlace} (h : isTop place = true) :
    fs.isDirectory place = true := by
  rw [isDirectory, at?, if_pos h]
  rfl

/-- There is a way to whatever is in a tree. -/
theorem IsTree.walk (h : fs.IsTree) {top : FilePlace} {names : List String}
    (hnames : ∀ name ∈ names, name ≠ ".." ∧ name ≠ "/")
    (hsome : (fs.at? (top ++ names)).isSome = true) : fs.walk top names = some (top ++ names) := by
  induction names using List.reverseRecOn with
  | nil => rw [List.append_nil]; rfl
  | append_singleton names name ih =>
      obtain ⟨hup, hslash⟩ := hnames name (List.mem_append_right _ List.mem_cons_self)
      have hbelow : isTop (top ++ names ++ [name]) = false := isTop_concat _ hslash
      rw [← List.append_assoc] at hsome ⊢
      obtain ⟨hdirectory, hname⟩ := h _ _ hsome hbelow
      have hway := ih (fun other hother => hnames other (List.mem_append_left _ hother))
        (isSome_at?_of_isDirectory hdirectory)
      have hstep : stepTo (top ++ names) name = top ++ names ++ [name] := if_neg hup
      rw [walk_append, hway, Option.bind_some, walk_cons, hstep]
      exact ⟨hdirectory, hname, rfl⟩

theorem foldl_stepTo (place : FilePlace) {names : List String} (h : ".." ∉ names) :
    names.foldl stepTo place = place ++ names := by
  induction names generalizing place with
  | nil => exact (List.append_nil place).symm
  | cons name rest ih =>
      rw [List.mem_cons, not_or] at h
      rw [List.foldl_cons, ih _ h.2, stepTo, if_neg (Ne.symm h.1), List.append_assoc]
      rfl

/-- A path without `..` leads to the file at its place. -/
theorem IsTree.locate (h : fs.IsTree) (hne : p.text.isEmpty = false) (hup : ".." ∉ p.names)
    (hsome : (fs.fileAt? (placeOf p)).isSome = true) : fs.locate p = some (placeOf p) := by
  have hplace : placeOf p = origin p ++ p.names := foldl_stepTo (origin p) hup
  have hthere : (fs.at? (origin p ++ p.names)).isSome = true := by
    rw [← hplace]
    rw [fileAt?] at hsome
    split at hsome
    · rename_i hat
      rw [hat]
      rfl
    · cases hsome
  rw [FileSystem.locate, hne, hplace]
  refine h.walk (fun name hname => ⟨?_, ?_⟩) hthere
  · rintro rfl
    exact hup hname
  · rintro rfl
    exact absurd (Path.slash_not_mem (List.mem_of_mem_filter hname)) (by decide)

/-! ### What a step may change -/

/-- What an operation keeps that changes the files at some places: the other files, the directories,
and that everything lies in a directory. -/
structure Spares (changed : List FilePlace) (fs gs : FileSystem) : Prop where
  directories : ∀ place, fs.isDirectory place = true → gs.isDirectory place = true
  files : ∀ place, place ∉ changed → gs.fileAt? place = fs.fileAt? place
  tree : fs.IsTree → gs.IsTree

namespace Spares

theorem refl (changed : List FilePlace) (fs : FileSystem) : Spares changed fs fs :=
  ⟨fun _ => id, fun _ _ => rfl, id⟩

variable {changed : List FilePlace}

theorem trans {hs : FileSystem} (h : Spares changed fs gs) (k : Spares changed gs hs) :
    Spares changed fs hs :=
  ⟨fun place hplace => k.directories place (h.directories place hplace),
    fun place hplace => (k.files place hplace).trans (h.files place hplace),
    fun htree => k.tree (h.tree htree)⟩

theorem mono {more : List FilePlace} (h : Spares changed fs gs) (hsub : changed ⊆ more) :
    Spares more fs gs :=
  ⟨h.directories, fun place hplace => h.files place fun hmem => hplace (hsub hmem), h.tree⟩

variable (h : Spares changed fs gs)
include h

theorem walk {place q : FilePlace} {names : List String} (hq : fs.walk place names = some q) :
    gs.walk place names = some q := by
  induction names generalizing place with
  | nil => exact hq
  | cons name rest ih =>
      obtain ⟨hdirectory, hname, hrest⟩ := walk_cons.1 hq
      exact walk_cons.2 ⟨h.directories place hdirectory, hname, ih hrest⟩

/-- A path that leads somewhere leads there still. -/
theorem locate {q : FilePlace} (hq : fs.locate p = some q) : gs.locate p = some q := by
  rw [FileSystem.locate] at hq ⊢
  split at hq
  · cases hq
  · rename_i hne
    rw [if_neg hne]
    exact h.walk hq

end Spares

/-- What an operation keeps that takes nothing away: whatever was there is there, and directories
are made only where nothing was. -/
structure Grows (fs gs : FileSystem) : Prop where
  present : ∀ place, (fs.at? place).isSome = true → (gs.at? place).isSome = true
  made : ∀ place, gs.isDirectory place = true → fs.isDirectory place = true ∨ fs.at? place = none

/-- Whether the way along names comes to a place where nothing is, before its end. -/
def MissesDirectory (fs : FileSystem) (place : FilePlace) : List String → Prop
  | [] => False
  | name :: rest =>
      fs.at? place = none ∨
        fs.isDirectory place = true ∧ fs.MissesDirectory (stepTo place name) rest

namespace Grows

theorem refl (fs : FileSystem) : Grows fs fs := ⟨fun _ => id, fun _ => .inl⟩

theorem trans {hs : FileSystem} (h : Grows fs gs) (k : Grows gs hs) : Grows fs hs := by
  refine ⟨fun place hplace => k.present place (h.present place hplace), fun place hplace => ?_⟩
  rcases k.made place hplace with hdirectory | hnone
  · exact h.made place hdirectory
  · right
    refine Option.not_isSome_iff_eq_none.1 fun hsome => ?_
    have hthere := h.present place hsome
    rw [hnone] at hthere
    cases hthere

variable (h : Grows fs gs)
include h

/-- A way that is there afterwards was there, unless a directory was missing. -/
theorem walk {place q : FilePlace} {names : List String} (hq : gs.walk place names = some q)
    (hway : ¬ fs.MissesDirectory place names) : fs.walk place names = some q := by
  induction names generalizing place with
  | nil => exact hq
  | cons name rest ih =>
      obtain ⟨hdirectory, hname, hrest⟩ := walk_cons.1 hq
      rw [MissesDirectory, not_or, not_and] at hway
      have hwas : fs.isDirectory place = true := (h.made place hdirectory).resolve_right hway.1
      exact walk_cons.2 ⟨hwas, hname, ih hrest (hway.2 hwas)⟩

end Grows

/-- A path is read as before when its file is spared and nothing was taken away.  Without `..` its
file lay in its directory; otherwise no directory on its way may have been missing. -/
theorem Spares.content? {changed : List FilePlace} (h : Spares changed fs gs) (hgrows : Grows fs gs)
    (hplace : placeOf p ∉ changed) (htree : fs.IsTree)
    (hup : ".." ∈ p.names → ¬ fs.MissesDirectory (origin p) p.names) :
    gs.content? p = fs.content? p := by
  rw [content?_eq, content?_eq]
  cases hwas : fs.locate p with
  | some place =>
      have hsame : place = placeOf p := locate_eq hwas
      rw [h.locate hwas, Option.bind_some, Option.bind_some, hsame, h.files _ hplace]
  | none =>
      cases his : gs.locate p with
      | none => rfl
      | some place =>
          have hsame : place = placeOf p := locate_eq his
          have hne : p.text.isEmpty = false := by
            refine Bool.eq_false_iff.2 fun hempty => ?_
            rw [FileSystem.locate, if_pos hempty] at his
            cases his
          have hnot : ".." ∉ p.names := fun hmem => by
            rw [FileSystem.locate, hne] at his hwas
            have hway : fs.walk (origin p) p.names = some place := hgrows.walk his (hup hmem)
            rw [if_neg Bool.false_ne_true, hway] at hwas
            cases hwas
          have hnone : fs.fileAt? (placeOf p) = none := by
            refine Option.not_isSome_iff_eq_none.1 fun hsome => ?_
            rw [htree.locate hne hnot hsome] at hwas
            cases hwas
          rw [Option.bind_some, hsame, h.files _ hplace, hnone]
          rfl

section
variable {place : FilePlace}

/-- Where something is put may lie in a tree. -/
def IsRoom (fs : FileSystem) (place : FilePlace) : Prop :=
  ∀ directory name, place = directory ++ [name] →
    fs.isDirectory directory = true ∧ isName name = true

theorem fileAt?_of_isTop (h : isTop place = true) : fs.fileAt? place = none := by
  rw [fileAt?, at?, if_pos h]

theorem fileAt?_put (node : FileNode) {q : FilePlace} (hq : q ≠ place) :
    (fs.put place node).fileAt? q = fs.fileAt? q := by
  cases htop : isTop q with
  | true => rw [fileAt?_of_isTop htop, fileAt?_of_isTop htop]
  | false => rw [fileAt?, fileAt?, at?_put place node htop, if_neg hq]

theorem fileAt?_remove {q : FilePlace} (hq : q ≠ place) :
    (fs.remove place).fileAt? q = fs.fileAt? q := by
  cases htop : isTop q with
  | true => rw [fileAt?_of_isTop htop, fileAt?_of_isTop htop]
  | false => rw [fileAt?, fileAt?, at?_remove place htop, if_neg hq]

theorem spares_put (node : FileNode) (hplace : fs.isDirectory place = false)
    (hroom : fs.IsTree → fs.IsRoom place) : Spares [place] fs (fs.put place node) := by
  have hdirectories : ∀ q, fs.isDirectory q = true → (fs.put place node).isDirectory q = true := by
    intro q hq
    cases htop : isTop q with
    | true => exact isDirectory_of_isTop htop
    | false =>
        rw [isDirectory, at?_put place node htop]
        split
        · rename_i hsame
          rw [hsame, hplace] at hq
          cases hq
        · exact hq
  refine ⟨hdirectories, fun q hq => fileAt?_put node (by simpa using hq), ?_⟩
  intro htree directory name hsome htop
  rw [at?_put place node htop] at hsome
  have hbelow : fs.isDirectory directory = true ∧ isName name = true := by
    split at hsome
    · rename_i hsame
      exact hroom htree directory name hsame.symm
    · exact htree directory name hsome htop
  exact ⟨hdirectories _ hbelow.1, hbelow.2⟩

theorem grows_put {node : FileNode} (hnode : node = .directory → fs.at? place = none) :
    Grows fs (fs.put place node) := by
  constructor
  · intro q hq
    cases htop : isTop q with
    | true => exact isSome_at?_of_isDirectory (isDirectory_of_isTop htop)
    | false =>
        rw [at?_put place node htop]
        split
        · rfl
        · exact hq
  · intro q hq
    cases htop : isTop q with
    | true => exact .inl (isDirectory_of_isTop htop)
    | false =>
        rw [isDirectory, at?_put place node htop] at hq
        split at hq
        · rename_i hsame
          rw [hsame]
          exact .inr (hnode (Option.some.inj (beq_iff_eq.1 hq)))
        · exact .inl hq

theorem spares_remove (hplace : fs.isDirectory place = false) :
    Spares [place] fs (fs.remove place) := by
  have hdirectories : ∀ q, fs.isDirectory q = true → (fs.remove place).isDirectory q = true :=
    fun q hq => (sameDirectories_remove hplace q).trans hq
  refine ⟨hdirectories, fun q hq => fileAt?_remove (by simpa using hq), ?_⟩
  intro htree directory name hsome htop
  rw [at?_remove place htop] at hsome
  split at hsome
  · cases hsome
  · obtain ⟨hdirectory, hname⟩ := htree directory name hsome htop
    exact ⟨hdirectories _ hdirectory, hname⟩

/-- A directory that is made where nothing was touches no file. -/
theorem spares_putDirectory (hplace : fs.at? place = none) (hroom : fs.IsTree → fs.IsRoom place) :
    Spares [] fs (fs.put place .directory) ∧ Grows fs (fs.put place .directory) := by
  have hnot : fs.isDirectory place = false := by
    rw [isDirectory, hplace]
    rfl
  have hput := spares_put .directory hnot hroom
  refine ⟨⟨hput.directories, fun q _ => ?_, hput.tree⟩, grows_put fun _ => hplace⟩
  by_cases hq : q = place
  · subst hq
    have htop := isTop_of_not_isDirectory hnot
    rw [fileAt?, fileAt?, at?_put q .directory htop, if_pos rfl, hplace]
  · exact hput.files q (by simpa using hq)

theorem isDirectory_above (htree : fs.IsTree) (h : fs.isDirectory place = true) :
    fs.isDirectory (above place) = true := by
  rw [above]
  split
  · exact h
  · rename_i htop
    rw [Bool.not_eq_true] at htop
    rcases List.eq_nil_or_concat' place with rfl | ⟨directory, name, rfl⟩
    · exact isDirectory_of_isTop rfl
    · rw [List.dropLast_concat]
      exact (htree directory name (isSome_at?_of_isDirectory h) htop).1

end

/-- Making directories touches no file and takes nothing away. -/
theorem spares_makeDirectories {place : FilePlace} {names : List String}
    (h : fs.makeDirectories place names = some gs)
    (hplace : fs.IsTree → fs.isDirectory place = true) : Spares [] fs gs ∧ Grows fs gs := by
  induction names generalizing fs place with
  | nil =>
      cases h
      exact ⟨.refl _ _, .refl _⟩
  | cons name rest ih =>
      rw [makeDirectories] at h
      split at h
      · cases h
      · rename_i hname
        rw [Bool.not_eq_true', Bool.not_eq_false] at hname
        split at h
        · exact ih h fun htree => isDirectory_above htree (hplace htree)
        · dsimp only at h
          split at h
          · rename_i hat
            refine ih h fun _ => ?_
            rw [isDirectory, hat]
            rfl
          · cases h
          · rename_i hat
            have hroom : fs.IsTree → fs.IsRoom (place ++ [name]) := by
              intro htree directory other hsame
              obtain ⟨rfl, hother⟩ := List.append_inj' hsame rfl
              rw [← List.singleton_inj.1 hother]
              exact ⟨hplace htree, hname⟩
            have hmade : (fs.put (place ++ [name]) .directory).isDirectory (place ++ [name]) =
                true := by
              cases htop : isTop (place ++ [name]) with
              | true => exact isDirectory_of_isTop htop
              | false =>
                  rw [isDirectory, at?_put _ _ htop, if_pos rfl]
                  rfl
            obtain ⟨hspares, hgrows⟩ := spares_putDirectory hat hroom
            obtain ⟨hrest, hmore⟩ := ih h fun _ => hmade
            exact ⟨hspares.trans hrest, hgrows.trans hmore⟩

/-! ### Operations that work -/

section
variable {absolute : Bool} {directory : List String} {name : String}

theorem writable_spec {place : FilePlace} (h : fs.writable p = some place) :
    place = placeOf p ∧ fs.locate p = some place ∧ fs.isDirectory place = false := by
  rw [writable] at h
  split at h
  · cases h
  · obtain ⟨hlocate, hplace⟩ := Option.filter_eq_some_iff.1 h
    exact ⟨locate_eq hlocate, hlocate, by simpa using hplace⟩

/-- A file can lie where a path to it leads. -/
theorem isRoom_of_locate (hentry : p.IsEntry absolute directory name) {place : FilePlace}
    (h : fs.locate p = some place) : fs.IsRoom place := by
  intro above last hlast
  have hplace := locate_eq h
  rw [placeOf_entry hentry, hlast] at hplace
  obtain ⟨habove, hname⟩ := List.append_inj' hplace rfl
  rw [habove, List.singleton_inj.1 hname]
  exact isDirectory_of_locate hentry h

theorem spares_putFile (hentry : p.IsEntry absolute directory name) {place : FilePlace}
    (h : fs.writable p = some place) (content : List UInt8) :
    Spares [placeOf p] fs (fs.put place (.file content)) := by
  obtain ⟨rfl, hlocate, hplace⟩ := writable_spec h
  exact spares_put _ hplace fun _ => isRoom_of_locate hentry hlocate

/-- Writing a file touches no other and takes nothing away. -/
theorem spares_write? (hentry : p.IsEntry absolute directory name) {content : List UInt8}
    (h : fs.write? p content = some gs) : Spares [placeOf p] fs gs ∧ Grows fs gs := by
  obtain ⟨place, hplace, rfl⟩ := Option.map_eq_some_iff.1 h
  exact ⟨spares_putFile hentry hplace content, grows_put fun hnode => nomatch hnode⟩

/-- A file that gets another name leaves its place. -/
theorem rename?_steps {source target : Path} (h : fs.rename? source target = some gs) :
    ∃ content place, fs.isDirectory (placeOf source) = false ∧
      (fs.remove (placeOf source)).writable target = some place ∧
      gs = (fs.remove (placeOf source)).put place (.file content) := by
  simp only [rename?, Option.bind_eq_bind, Option.bind_eq_some_iff, Option.pure_def,
    Option.some.injEq] at h
  obtain ⟨content, hcontent, origin, horigin, place, hplace, rfl⟩ := h
  have hfile := not_isDirectory_of_content? hcontent horigin
  obtain rfl := locate_eq horigin
  exact ⟨content, place, hfile, ((sameDirectories_remove hfile).writable target).trans hplace, rfl⟩

variable {source target : Path}

theorem spares_rename? (hentry : target.IsEntry absolute directory name)
    (h : fs.rename? source target = some gs) :
    Spares [placeOf source, placeOf target] fs gs := by
  obtain ⟨content, place, hfile, hplace, rfl⟩ := rename?_steps h
  exact ((spares_remove hfile).mono (by simp)).trans
    ((spares_putFile hentry hplace content).mono (by simp))

/-- A file that got another name is not found under the old one. -/
theorem find?_of_rename? (hapart : placeOf source ≠ placeOf target)
    (h : fs.rename? source target = some gs) : gs.find? source = none := by
  obtain ⟨content, place, hfile, hplace, hgs⟩ := rename?_steps h
  obtain ⟨rfl, -, -⟩ := writable_spec hplace
  have htop := isTop_of_not_isDirectory hfile
  rw [find?]
  cases hlocate : gs.locate source with
  | none => rfl
  | some q =>
      rw [locate_eq hlocate, Option.bind_some, hgs, at?_put _ _ htop, if_neg hapart,
        at?_remove _ htop, if_pos rfl]
      rfl

end

end FileSystem

end EscapeRoom
