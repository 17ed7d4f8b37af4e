import EscapeRoom.Files.FileSystem
import Mathlib.Tactic.SplitIfs

/-!
# What a file system holds

Paths are walked through directories, so operations that put, move and remove files lead no path to
another place.  A file that was written, or replaced by way of its sibling, has its new content.

* `Disk.Replacing` — what can come of replacing a file.
* `FileSystem.SameDirectories` — file systems with the same directories, in which paths lead to the
  same places.
* `FileSystem.content?_write?`, `FileSystem.content?_rename?` — files that are written and renamed.
* `FileSystem.content?_replace` — files that are replaced.
-/

namespace EscapeRoom

/-! ### The steps of a replacement -/

/-- What can come of replacing a file: the outcome and the state after it, seen from before. -/
inductive Disk.Replacing {σ : Type} (disk : Disk (StateM σ)) (path : Path) (extension : String)
    (content : List UInt8) (s : σ) : Except ReplaceFault Unit → σ → Prop
  /-- The directory cannot be made. -/
  | unprepared {directory : Path} {t : σ} (prepared : disk.prepare path s = (.error directory, t)) :
      Replacing disk path extension content s (.error (.createDirectories directory)) t
  /-- The sibling cannot be written. -/
  | unwritten {t u : σ} {fault : WriteFault} (prepared : disk.prepare path s = (.ok (), t))
      (written : disk.write (path.withExtension extension) content t = (.error fault, u)) :
      Replacing disk path extension content s
        (.error (.write fault (path.withExtension extension))) u
  /-- The sibling cannot be renamed. -/
  | unnamed {t u v : σ} (prepared : disk.prepare path s = (.ok (), t))
      (written : disk.write (path.withExtension extension) content t = (.ok (), u))
      (renamed : disk.rename (path.withExtension extension) path u = (false, v)) :
      Replacing disk path extension content s
        (.error (.rename (path.withExtension extension) path)) v
  /-- Every step works. -/
  | replaced {t u v : σ} (prepared : disk.prepare path s = (.ok (), t))
      (written : disk.write (path.withExtension extension) content t = (.ok (), u))
      (renamed : disk.rename (path.withExtension extension) path u = (true, v)) :
      Replacing disk path extension content s (.ok ()) v

theorem Disk.replacing_replace {σ : Type} (disk : Disk (StateM σ)) (path : Path)
    (extension : String) (content : List UInt8) (s : σ) :
    Replacing disk path extension content s (disk.replace path extension content s).1
      (disk.replace path extension content s).2 := by
  obtain ⟨prepared, t, hprepare⟩ : ∃ prepared t, disk.prepare path s = (prepared, t) := ⟨_, _, rfl⟩
  simp only [replace, bind, StateT.bind, hprepare]
  cases prepared with
  | error directory => exact .unprepared hprepare
  | ok =>
      obtain ⟨written, u, hwrite⟩ : ∃ written u,
          disk.write (path.withExtension extension) content t = (written, u) := ⟨_, _, rfl⟩
      simp only [bind, StateT.bind, hwrite]
      cases written with
      | error fault => exact .unwritten hprepare hwrite
      | ok =>
          obtain ⟨renamed, v, hrename⟩ : ∃ renamed v,
              disk.rename (path.withExtension extension) path u = (renamed, v) := ⟨_, _, rfl⟩
          simp only [bind, StateT.bind, hrename]
          cases renamed with
          | false => exact .unnamed hprepare hwrite hrename
          | true => exact .replaced hprepare hwrite hrename

/-- When a file was replaced, its sibling was written and then got its name. -/
theorem Disk.steps_of_replace {σ : Type} {disk : Disk (StateM σ)} {path : Path} {extension : String}
    {content : List UInt8} {s : σ} (h : (disk.replace path extension content s).1 = .ok ()) :
    ∃ t u, disk.write (path.withExtension extension) content t = (.ok (), u) ∧
      disk.rename (path.withExtension extension) path u =
        (true, (disk.replace path extension content s).2) := by
  have hsteps := disk.replacing_replace path extension content s
  rw [h] at hsteps
  cases hsteps with
  | replaced hprepare hwrite hrename => exact ⟨_, _, hwrite, hrename⟩

namespace FileSystem

variable {fs : FileSystem} {p : Path}

/-- What has a content is there. -/
theorem isSome_find?_of_content? {content : List UInt8} (h : fs.content? p = some content) :
    (fs.find? p).isSome = true := by
  rw [content?] at h
  split at h
  · next hfound => rw [hfound, Option.isSome_some]
  · cases h

/-! ### Places -/

theorem isTop_of_not_isDirectory {place : FilePlace} (h : fs.isDirectory place = false) :
    isTop place = false := by
  refine Bool.eq_false_iff.2 fun htop => ?_
  rw [isDirectory, at?, if_pos htop] at h
  exact absurd h (by decide)

theorem at?_put (place : FilePlace) (node : FileNode) {q : FilePlace} (hq : isTop q = false) :
    (fs.put place node).at? q = if q = place then some node else fs.at? q := by
  rw [at?, at?, hq]
  exact OrderedMap.get?_insert fs.nodes place q node

theorem findEntry_filter (place q : FilePlace) (l : List (FilePlace × FileNode)) :
    OrderedMap.findEntry q (l.filter fun e => e.1 != place) =
      if q = place then none else OrderedMap.findEntry q l := by
  induction l with
  | nil => simp [OrderedMap.findEntry]
  | cons e l ih =>
      obtain ⟨k, node⟩ := e
      by_cases hk : k = place
      · subst hk
        rw [List.filter_cons_of_neg (by simp), ih, OrderedMap.findEntry]
        split_ifs <;> rfl
      · rw [List.filter_cons_of_pos (by simpa using hk), OrderedMap.findEntry,
          OrderedMap.findEntry, ih]
        by_cases hq : q = k
        · subst hq
          simp [hk]
        · simp [hq]

theorem at?_remove (place : FilePlace) {q : FilePlace} (hq : isTop q = false) :
    (fs.remove place).at? q = if q = place then none else fs.at? q := by
  have hsorted : (fs.nodes.entries.filter fun e => e.1 != place).Pairwise fun a b => a.1 < b.1 :=
    fs.nodes.sorted.sublist List.filter_sublist
  have hentries : (fs.remove place).nodes.entries =
      fs.nodes.entries.filter fun e => e.1 != place :=
    OrderedMap.entries_foldl_insert (m := .empty) hsorted
  rw [at?, at?, hq, OrderedMap.get?, hentries, findEntry_filter]
  rfl

/-! ### Directories -/

/-- Two file systems have the same directories. -/
def SameDirectories (fs gs : FileSystem) : Prop :=
  ∀ place, gs.isDirectory place = fs.isDirectory place

theorem isDirectory_eq_of_at? {gs : FileSystem} {q : FilePlace}
    (h : isTop q = false → gs.isDirectory q = fs.isDirectory q) :
    gs.isDirectory q = fs.isDirectory q := by
  cases htop : isTop q with
  | false => exact h htop
  | true => simp only [isDirectory, at?, htop, if_true]

/-- Directories stay when a file is put where none of them is. -/
theorem sameDirectories_put {place : FilePlace} (hplace : fs.isDirectory place = false)
    (content : List UInt8) : fs.SameDirectories (fs.put place (.file content)) := by
  intro q
  refine isDirectory_eq_of_at? fun hq => ?_
  rw [isDirectory, at?_put place _ hq]
  split
  · next heq =>
      rw [heq, hplace]
      rfl
  · rfl

/-- Directories stay when something else is removed. -/
theorem sameDirectories_remove {place : FilePlace} (hplace : fs.isDirectory place = false) :
    fs.SameDirectories (fs.remove place) := by
  intro q
  refine isDirectory_eq_of_at? fun hq => ?_
  rw [isDirectory, at?_remove place hq]
  split
  · next heq =>
      rw [heq, hplace]
      rfl
  · rfl

namespace SameDirectories

variable {gs : FileSystem} (h : fs.SameDirectories gs)
include h

theorem walk (place : FilePlace) (names : List String) :
    gs.walk place names = fs.walk place names := by
  induction names generalizing place with
  | nil => rfl
  | cons name rest ih => rw [FileSystem.walk, FileSystem.walk, h place, ih, ih]

theorem locate (p : Path) : gs.locate p = fs.locate p := by
  rw [FileSystem.locate, FileSystem.locate, h.walk]

theorem writable (p : Path) : gs.writable p = fs.writable p := by
  have hplaces : (fun place => !gs.isDirectory place) = fun place => !fs.isDirectory place :=
    funext fun place => by rw [h place]
  rw [FileSystem.writable, FileSystem.writable, h.locate, hplaces]

end SameDirectories

/-! ### Files -/

/-- The file that is put where a path can be written is what the path leads to. -/
theorem content?_put {place : FilePlace} (h : fs.writable p = some place) (content : List UInt8) :
    (fs.put place (.file content)).content? p = some content := by
  have hfile : p.wantsDirectory = false := by
    refine Bool.eq_false_iff.2 fun hwants => ?_
    rw [writable, if_pos hwants] at h
    cases h
  rw [writable, hfile] at h
  obtain ⟨hlocate, hplace⟩ := Option.filter_eq_some_iff.1 h
  rw [Bool.not_eq_true'] at hplace
  have hat : (fs.put place (.file content)).at? place = some (.file content) := by
    rw [at?_put place _ (isTop_of_not_isDirectory hplace), if_pos rfl]
  have hfind : (fs.put place (.file content)).find? p = some (.file content) := by
    rw [find?, (sameDirectories_put hplace content).locate, hlocate, Option.bind_some, hat,
      Option.filter_some, hfile]
    rfl
  rw [content?, hfind]

/-- A file that was written has its content. -/
theorem content?_write? {content : List UInt8} {gs : FileSystem}
    (h : fs.write? p content = some gs) : gs.content? p = some content := by
  obtain ⟨place, hplace, rfl⟩ := Option.map_eq_some_iff.1 h
  exact content?_put hplace content

/-- What has a content is no directory. -/
theorem not_isDirectory_of_content? {content : List UInt8} (h : fs.content? p = some content)
    {place : FilePlace} (hplace : fs.locate p = some place) : fs.isDirectory place = false := by
  rw [content?] at h
  split at h
  · next hfind =>
      rw [find?, hplace] at hfind
      obtain ⟨hat, -⟩ := Option.filter_eq_some_iff.1 hfind
      rw [isDirectory, show fs.at? place = _ from hat]
      rfl
  · cases h

/-- A file keeps its content when it gets another name. -/
theorem content?_rename? {source target : Path} {content : List UInt8} {gs : FileSystem}
    (hsource : fs.content? source = some content) (h : fs.rename? source target = some gs) :
    gs.content? target = some content := by
  simp only [rename?, hsource, Option.bind_eq_bind, Option.bind_some, Option.bind_eq_some_iff,
    Option.pure_def, Option.some.injEq] at h
  obtain ⟨origin, horigin, place, hplace, rfl⟩ := h
  have hsame := sameDirectories_remove (not_isDirectory_of_content? hsource horigin)
  exact content?_put ((hsame.writable target).trans hplace) content

/-! ### Replacing a file -/

/-- An operation that worked was carried out. -/
theorem eq_some_of_attempt {α : Type} {failure success : α} (hne : failure ≠ success)
    {f : FileSystem → Option FileSystem} {gs : FileSystem}
    (h : attempt failure success f fs = (success, gs)) : f fs = some gs := by
  rw [attempt] at h
  split at h
  · next hafter => rw [hafter, (Prod.mk.inj h).2]
  · exact absurd (Prod.mk.inj h).1 hne

/-- **A file that was replaced has its new content.** -/
theorem content?_replace {extension : String} {content : List UInt8}
    (h : (disk.replace p extension content fs).1 = .ok ()) :
    (disk.replace p extension content fs).2.content? p = some content := by
  obtain ⟨gs, hs, hwrite, hrename⟩ := Disk.steps_of_replace h
  have hne : (Except.error .openFile : Except WriteFault Unit) ≠ .ok () := by simp
  have hwritten : gs.write? (p.withExtension extension) content = some hs :=
    eq_some_of_attempt (f := fun fs => fs.write? _ content) hne hwrite
  have hrenamed : hs.rename? (p.withExtension extension) p =
      some (disk.replace p extension content fs).2 :=
    eq_some_of_attempt (f := fun fs => fs.rename? _ p) Bool.false_ne_true hrename
  exact content?_rename? (content?_write? hwritten) hrenamed

end FileSystem

end EscapeRoom
