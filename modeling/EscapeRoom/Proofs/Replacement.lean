import EscapeRoom.Config
import EscapeRoom.Proofs.Place
import EscapeRoom.Server.DataFile

/-!
# Files are replaced as a whole

A file is replaced by way of a sibling, and any of the steps may fail.  Directories are made and the
sibling is written before the file is touched; the renaming, which comes last, replaces the file and
takes the sibling away.  So a failure leaves the file as it was, and neither outcome touches a third
file.

* `FileSystem.Trouble`, `FileSystem.troubled` — what goes wrong, and the operations then.
* `FileSystem.IsReplacement` — how a file is replaced.
* `FileSystem.saved_as_a_whole` — the data file and the configuration.
-/

namespace EscapeRoom

namespace FileSystem

variable {fs gs : FileSystem} {p : Path}

/-! ### Operations that fail -/

/-- What goes wrong when a file is replaced. -/
inductive Trouble
  /-- The directories of only so many names get made. -/
  | directories (made : Nat)
  /-- The file is not written, or only so many octets get into it. -/
  | write (fault : WriteFault) (written : Nat)
  /-- The file does not get its other name. -/
  | rename
  deriving DecidableEq, Repr

/-- The operations on files, one of which may fail where it would have worked. -/
def troubled (trouble : Option Trouble) : Disk (StateM FileSystem) where
  isPresent := disk.isPresent
  read := disk.read
  createDirectories p := fun fs =>
    match trouble with
    | some (.directories made) =>
        (false, (fs.makeDirectories (origin p) (p.names.take made)).getD fs)
    | _ => disk.createDirectories p fs
  write p content := fun fs =>
    match trouble with
    | some (.write .openFile _) => (.error .openFile, fs)
    | some (.write fault written) =>
        match disk.write p (content.take written) fs with
        | (.ok (), gs) => (.error fault, gs)
        | refused => refused
    | _ => disk.write p content fs
  rename source target := fun fs =>
    match trouble with
    | some .rename => (false, fs)
    | _ => disk.rename source target fs

section
variable (trouble : Option Trouble)

theorem spares_createDirectories (q : Path) (fs : FileSystem) :
    Spares [] fs ((troubled trouble).createDirectories q fs).2 ∧
      Grows fs ((troubled trouble).createDirectories q fs).2 := by
  have htop : fs.IsTree → fs.isDirectory (origin q) = true := fun _ => by
    rw [origin]
    split <;> exact isDirectory_of_isTop rfl
  have hmade : ∀ names, Spares [] fs ((fs.makeDirectories (origin q) names).getD fs) ∧
      Grows fs ((fs.makeDirectories (origin q) names).getD fs) := by
    intro names
    cases h : fs.makeDirectories (origin q) names with
    | none => exact ⟨.refl _ _, .refl _⟩
    | some gs => exact spares_makeDirectories h htop
  have hwhole : (disk.createDirectories q fs).2 =
      (fs.makeDirectories (origin q) q.names).getD fs := by
    show (attempt false true (fun fs => fs.createDirectories? q) fs).2 = _
    rw [attempt, createDirectories?]
    split
    · rename_i hsome
      rw [hsome]
      rfl
    · rename_i hnone
      rw [hnone]
      rfl
  simp only [troubled]
  split
  · exact hmade _
  · rw [hwhole]
    exact hmade _

/-- Preparing a replacement touches no file and takes nothing away. -/
theorem spares_prepare (q : Path) (fs : FileSystem) :
    Spares [] fs ((troubled trouble).prepare q fs).2 ∧
      Grows fs ((troubled trouble).prepare q fs).2 := by
  rw [Disk.prepare]
  cases q.parent? with
  | none => exact ⟨.refl _ _, .refl _⟩
  | some parent =>
      dsimp only
      by_cases hempty : parent.text.isEmpty = true
      · rw [if_pos hempty]
        exact ⟨.refl _ _, .refl _⟩
      · rw [if_neg hempty]
        have hspares := spares_createDirectories trouble parent fs
        obtain ⟨made, gs, hmade⟩ : ∃ made gs,
            (troubled trouble).createDirectories parent fs = (made, gs) := ⟨_, _, rfl⟩
        rw [hmade] at hspares
        simp only [bind, StateT.bind, hmade]
        cases made <;> exact hspares

/-- Writing a file touches no other and takes nothing away, whatever goes wrong. -/
theorem spares_write {absolute : Bool} {directory : List String} {name : String}
    (hentry : p.IsEntry absolute directory name) (content : List UInt8) (fs : FileSystem) :
    Spares [placeOf p] fs ((troubled trouble).write p content fs).2 ∧
      Grows fs ((troubled trouble).write p content fs).2 := by
  have hdisk : ∀ part, Spares [placeOf p] fs (disk.write p part fs).2 ∧
      Grows fs (disk.write p part fs).2 := by
    intro part
    show Spares _ fs (attempt _ _ (fun fs => fs.write? p part) fs).2 ∧
      Grows fs (attempt _ _ (fun fs => fs.write? p part) fs).2
    rw [attempt]
    split
    · rename_i hwritten
      exact spares_write? hentry hwritten
    · exact ⟨.refl _ _, .refl _⟩
  simp only [troubled]
  split
  · exact ⟨.refl _ _, .refl _⟩
  · rename_i fault written _
    have hpart := hdisk (content.take written)
    split
    · rename_i hok
      rw [hok] at hpart
      exact hpart
    · exact hpart
  · exact hdisk content

theorem write?_of_write {content : List UInt8}
    (h : (troubled trouble).write p content fs = (.ok (), gs)) : fs.write? p content = some gs := by
  have hne : (Except.error .openFile : Except WriteFault Unit) ≠ .ok () := by simp
  simp only [troubled] at h
  split at h
  · cases h
  · split at h
    · cases h
    · rename_i hnot
      exact absurd h (hnot _)
  · exact eq_some_of_attempt (f := fun fs => fs.write? p content) hne h

theorem rename_cases (source target : Path) (fs : FileSystem) :
    (troubled trouble).rename source target fs = (false, fs) ∨
      ∃ gs, (troubled trouble).rename source target fs = (true, gs) ∧
        fs.rename? source target = some gs := by
  simp only [troubled]
  split
  · exact .inl rfl
  · show attempt false true (fun fs => fs.rename? source target) fs = _ ∨
      ∃ gs, attempt false true (fun fs => fs.rename? source target) fs = _ ∧ _
    rw [attempt]
    split
    · rename_i hrenamed
      exact .inr ⟨_, rfl, hrenamed⟩
    · exact .inl rfl

end

/-! ### Replacements -/

/-- How a file is replaced by way of a temporary one. -/
structure IsReplacement (path temporary : Path) (content : List UInt8) (before after : FileSystem)
    (worked : Bool) : Prop where
  /-- The temporary file is another file. -/
  apart : placeOf temporary ≠ placeOf path
  /-- A failure leaves the file, or leaves none. -/
  kept : worked = false → after.fileAt? (placeOf path) = before.fileAt? (placeOf path)
  /-- It is also read as before; a path with `..` may have led nowhere for want of a directory. -/
  readable : worked = false → before.IsTree →
    (".." ∈ path.names → ¬ before.MissesDirectory (origin path) path.names) →
    after.content? path = before.content? path
  /-- Success gives the file its content. -/
  written : worked = true → after.content? path = some content
  /-- Success leaves no temporary file. -/
  removed : worked = true → after.find? temporary = none
  /-- No other file is touched, and no directory is taken away. -/
  spares : Spares [placeOf temporary, placeOf path] before after

section
variable {path temporary : Path} {content : List UInt8}

/-- A failure that touched no file but the temporary one. -/
theorem IsReplacement.failed (hapart : placeOf temporary ≠ placeOf path)
    (h : Spares [placeOf temporary] fs gs) (hgrows : Grows fs gs) :
    IsReplacement path temporary content fs gs false where
  apart := hapart
  kept _ := h.files _ (by simpa using hapart.symm)
  readable _ htree hup := h.content? hgrows (by simpa using hapart.symm) htree hup
  written hworked := nomatch hworked
  removed hworked := nomatch hworked
  spares := h.mono (by simp)

end

theorem isEnding_json : Path.IsEnding "json.tmp" := ⟨by decide, by decide⟩

theorem isEnding_toml : Path.IsEnding "toml.tmp" := ⟨by decide, by decide⟩

/-- A file is kept or replaced as a whole. -/
theorem isReplacement_replace {path : Path} {name : String} (hname : path.fileName? = some name)
    {extension : String} (hextension : Path.IsEnding extension) (content : List UInt8)
    (trouble : Option Trouble) (fs : FileSystem) :
    IsReplacement path (path.withExtension extension) content fs
      ((troubled trouble).replace path extension content fs).2
      ((troubled trouble).replace path extension content fs).1.toBool := by
  obtain ⟨directory, hpath, hsibling⟩ := Path.isEntry_of_fileName? hname
  have htemporary := hsibling extension hextension
  have hapart : placeOf (path.withExtension extension) ≠ placeOf path := by
    rw [placeOf_entry htemporary, placeOf_entry hpath]
    intro hsame
    exact Path.siblingName_ne hextension.point
      (List.singleton_inj.1 (List.append_inj' hsame rfl).2)
  obtain ⟨hprepared, hmade⟩ := spares_prepare trouble path fs
  have hsteps := Disk.replacing_replace (troubled trouble) path extension content fs
  generalize (troubled trouble).replace path extension content fs = result at hsteps ⊢
  obtain ⟨outcome, after⟩ := result
  -- up to the renaming only the sibling is touched and nothing is taken away
  have hsofar : ∀ {t u : FileSystem} {written : Except WriteFault Unit},
      (troubled trouble).prepare path fs = (.ok (), t) →
      (troubled trouble).write (path.withExtension extension) content t = (written, u) →
      Spares [placeOf (path.withExtension extension)] fs u ∧ Grows fs u := by
    intro t u written hprepare hwrite
    obtain ⟨hwritten, hmore⟩ := spares_write trouble htemporary content t
    rw [hprepare] at hprepared hmade
    rw [hwrite] at hwritten hmore
    exact ⟨(hprepared.mono (by simp)).trans hwritten, hmade.trans hmore⟩
  cases hsteps with
  | unprepared hprepare =>
      rw [hprepare] at hprepared hmade
      exact .failed hapart (hprepared.mono (by simp)) hmade
  | unwritten hprepare hwrite =>
      obtain ⟨hspares, hgrows⟩ := hsofar hprepare hwrite
      exact .failed hapart hspares hgrows
  | unnamed hprepare hwrite hrename =>
      obtain ⟨hspares, hgrows⟩ := hsofar hprepare hwrite
      rcases rename_cases trouble _ path _ with hsame | ⟨gs, hgs, -⟩
      · rw [hrename] at hsame
        cases hsame
        exact .failed hapart hspares hgrows
      · rw [hrename] at hgs
        cases hgs
  | replaced hprepare hwrite hrename =>
      obtain ⟨hspares, -⟩ := hsofar hprepare hwrite
      rcases rename_cases trouble _ path _ with hsame | ⟨gs, hgs, hmoved⟩
      · rw [hrename] at hsame
        cases hsame
      · rw [hrename] at hgs
        cases hgs
        exact
          { apart := hapart
            kept := fun hworked => nomatch hworked
            readable := fun hworked => nomatch hworked
            written := fun _ =>
              content?_rename? (content?_write? (write?_of_write trouble hwrite)) hmoved
            removed := fun _ => find?_of_rename? hapart hmoved
            spares := (hspares.mono (by simp)).trans (spares_rename? hpath hmoved) }

theorem isReplacement_saveDatabase {path : Path} {name : String}
    (hname : path.fileName? = some name) (trouble : Option Trouble) (fs : FileSystem)
    (db : Database) :
    IsReplacement path (path.withExtension "json.tmp") (Text.Utf8.encode db.fileText.toList) fs
      (db.save (troubled trouble) path fs).2 (db.save (troubled trouble) path fs).1.toBool := by
  have hreplaced := isReplacement_replace hname isEnding_json
    (Text.Utf8.encode db.fileText.toList) trouble fs
  obtain ⟨outcome, after, heq⟩ : ∃ outcome after, (troubled trouble).replace path "json.tmp"
      (Text.Utf8.encode db.fileText.toList) fs = (outcome, after) := ⟨_, _, rfl⟩
  rw [heq] at hreplaced
  simp only [Database.save, bind, StateT.bind, heq]
  cases outcome <;> exact hreplaced

theorem isReplacement_saveConfig {path : Path} {name : String}
    (hname : path.fileName? = some name) (trouble : Option Trouble) (fs : FileSystem)
    (c : Config) :
    IsReplacement path (path.withExtension "toml.tmp") (Text.Utf8.encode c.text.toList) fs
      (c.save (troubled trouble) path fs).2 (c.save (troubled trouble) path fs).1.toBool := by
  have hreplaced := isReplacement_replace hname isEnding_toml
    (Text.Utf8.encode c.text.toList) trouble fs
  rw [Config.save, Config.validated]
  cases c.fault? with
  | some fault => exact .failed hreplaced.apart (.refl _ _) (.refl _)
  | none =>
      dsimp only
      split
      · exact .failed hreplaced.apart (.refl _ _) (.refl _)
      · obtain ⟨outcome, after, heq⟩ : ∃ outcome after, (troubled trouble).replace path "toml.tmp"
            (Text.Utf8.encode c.text.toList) fs = (outcome, after) := ⟨_, _, rfl⟩
        rw [heq] at hreplaced
        simp only [bind, StateT.bind, heq]
        cases outcome <;> exact hreplaced

section
/-- A name with points in front and behind, in a directory that is not there. -/
def pointedPath : Path := ⟨"saves/..progress.json.tmp"⟩

/-- The file system after the first save there. -/
def savedOnce : FileSystem := ((Database.empty).save (troubled none) pointedPath empty).2

end

end FileSystem

end EscapeRoom
