import EscapeRoom.Proofs.FileSystem
import EscapeRoom.Proofs.Message

/-!
# Saving to a disk that may fail

The disk holds the data file and the temporary one beside it, and any operation may fail.  However a
save ends, the data file holds either the whole new database or what it held before.

* `SaveFault`, `DataDisk`, `DataDisk.disk` — the disk and what may go wrong on it.
* `DataDisk.stored` — what the server would load.
* `DataDisk.stored_save` — what is stored after a save that worked or failed.
-/

namespace EscapeRoom

/-- What goes wrong when the data file is replaced. -/
inductive SaveFault
  /-- The directory cannot be made. -/
  | createDirectories
  /-- The temporary file cannot be opened. -/
  | openFile
  /-- Only so many octets get into the temporary file. -/
  | fill (written : Nat)
  /-- The temporary file cannot take the place of the data file. -/
  | rename
  deriving DecidableEq

/-- The content of the data file and of the temporary file, and what goes wrong. -/
structure DataDisk where
  file : Option (List UInt8)
  temporary : Option (List UInt8)
  fault : Option SaveFault
  deriving DecidableEq

namespace DataDisk

/-- The operations on a disk with the data file at a path.  The data file itself is never opened for
writing; every other path leads to the temporary file. -/
def disk (path : Path) : Disk (StateM DataDisk) where
  isPresent p := fun d => ((if p = path then d.file else d.temporary).isSome, d)
  read p := fun d => (if p = path then d.file else d.temporary, d)
  createDirectories _ := fun d => (d.fault != some .createDirectories, d)
  write p content := fun d =>
    if p = path then (.error .openFile, d)
    else
      match d.fault with
      | some .openFile => (.error .openFile, d)
      | some (.fill written) => (.error .fill, { d with temporary := some (content.take written) })
      | _ => (.ok (), { d with temporary := some content })
  rename _ _ := fun d =>
    if d.fault = some .rename then (false, d)
    else (true, { d with file := d.temporary, temporary := none })

variable (path : Path) (d : DataDisk)

/-- The database that the data file holds. -/
def stored : Except DataFault Database := (Database.load (disk path) path d).1

/-- What is stored depends on the content of the data file alone. -/
theorem stored_eq :
    d.stored path =
      match d.file with
      | none => .ok .empty
      | some content =>
          match Text.Utf8.decode? content with
          | none => .error (.read path)
          | some text =>
              match Database.ofFileText? (String.ofList text) with
              | none => .error (.parse path)
              | some db => .ok db := by
  cases hfile : d.file with
  | none =>
      simp only [stored, Database.load, bind, StateT.bind, disk, if_true, hfile, Option.isSome_none,
        Bool.false_eq_true, if_false]
      rfl
  | some content =>
      simp only [stored, Database.load, bind, StateT.bind, disk, if_true, hfile, Option.isSome_some]
      dsimp only [Option.bind]
      cases Text.Utf8.decode? content with
      | none => rfl
      | some text =>
          dsimp only
          cases Database.ofFileText? (String.ofList text) <;> rfl

/-- What goes wrong from now on does not change what is stored. -/
theorem stored_fault (fault : Option SaveFault) :
    ({ d with fault := fault } : DataDisk).stored path = d.stored path := by
  rw [stored_eq, stored_eq]

theorem stored_of_file {db : Database}
    (h : d.file = some (Text.Utf8.encode db.fileText.toList)) : d.stored path = .ok db := by
  rw [stored_eq, h]
  dsimp only
  rw [Text.Utf8.decode?_encode]
  dsimp only
  rw [String.ofList_toList, Database.ofFileText?_fileText]

theorem prepare_eq : ∃ r, (disk path).prepare path d = (r, d) := by
  unfold Disk.prepare
  cases path.parent? with
  | none => exact ⟨_, rfl⟩
  | some parent =>
      dsimp only
      by_cases hempty : parent.text.isEmpty = true
      · rw [if_pos hempty]
        exact ⟨_, rfl⟩
      · rw [if_neg hempty]
        simp only [bind, StateT.bind, disk]
        by_cases hmade : (d.fault != some .createDirectories) = true
        · rw [if_pos hmade]
          exact ⟨_, rfl⟩
        · rw [if_neg hmade]
          exact ⟨_, rfl⟩

theorem file_write (p : Path) (content : List UInt8) :
    ((disk path).write p content d).2.file = d.file ∧
      (((disk path).write p content d).1 = .ok () →
        ((disk path).write p content d).2.temporary = some content) := by
  simp only [disk]
  split
  · exact ⟨rfl, fun h => nomatch h⟩
  · split
    · exact ⟨rfl, fun h => nomatch h⟩
    · exact ⟨rfl, fun h => nomatch h⟩
    · exact ⟨rfl, fun _ => rfl⟩

/-- Replacing the data file gives it the new content or leaves it alone. -/
theorem file_replace (extension : String) (content : List UInt8) :
    ((disk path).replace path extension content d).1 = .ok () ∧
        ((disk path).replace path extension content d).2.file = some content ∨
      (∃ e, ((disk path).replace path extension content d).1 = .error e) ∧
        ((disk path).replace path extension content d).2.file = d.file := by
  -- of the steps only the rename touches the data file, and it comes last
  have hwritten := file_write path d (path.withExtension extension) content
  have hsame : ∀ {prepared : Except Path Unit} {t : DataDisk},
      (disk path).prepare path d = (prepared, t) → t = d := by
    intro prepared t hprepare
    obtain ⟨r, hr⟩ := prepare_eq path d
    exact (Prod.mk.inj (hprepare.symm.trans hr)).2
  have hsteps := (disk path).replacing_replace path extension content d
  generalize (disk path).replace path extension content d = result at hsteps ⊢
  obtain ⟨outcome, after⟩ := result
  cases hsteps with
  | unprepared hprepare =>
      obtain rfl := hsame hprepare
      exact .inr ⟨⟨_, rfl⟩, rfl⟩
  | unwritten hprepare hwrite =>
      obtain rfl := hsame hprepare
      rw [hwrite] at hwritten
      exact .inr ⟨⟨_, rfl⟩, hwritten.1⟩
  | unnamed hprepare hwrite hrename =>
      obtain rfl := hsame hprepare
      rw [hwrite] at hwritten
      simp only [disk] at hrename
      split at hrename
      · cases hrename
        exact .inr ⟨⟨_, rfl⟩, hwritten.1⟩
      · cases hrename
  | replaced hprepare hwrite hrename =>
      obtain rfl := hsame hprepare
      rw [hwrite] at hwritten
      simp only [disk] at hrename
      split at hrename
      · cases hrename
      · cases hrename
        exact .inl ⟨rfl, hwritten.2 rfl⟩

/-- **A save that works stores the database, and one that fails changes nothing that is stored.** -/
theorem stored_save (db : Database) :
    ((db.save (disk path) path d).1.toBool = true →
        (db.save (disk path) path d).2.stored path = .ok db) ∧
      ((db.save (disk path) path d).1.toBool = false →
        (db.save (disk path) path d).2.stored path = d.stored path) := by
  have hreplace := file_replace path d "json.tmp" (Text.Utf8.encode db.fileText.toList)
  obtain ⟨outcome, after, heq⟩ : ∃ outcome after, (disk path).replace path "json.tmp"
      (Text.Utf8.encode db.fileText.toList) d = (outcome, after) := ⟨_, _, rfl⟩
  rw [heq] at hreplace
  simp only [Database.save, bind, StateT.bind, heq]
  rcases hreplace with ⟨hok, hfile⟩ | ⟨⟨e, herror⟩, hfile⟩
  · cases hok
    exact ⟨fun _ => stored_of_file path after hfile, fun h => Bool.noConfusion h⟩
  · cases herror
    refine ⟨fun h => Bool.noConfusion h, fun _ => ?_⟩
    show after.stored path = _
    rw [stored_eq, stored_eq, hfile]

end DataDisk

end EscapeRoom
