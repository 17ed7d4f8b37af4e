import EscapeRoom.Proofs.FileSystem
import EscapeRoom.Proofs.Toml.Settings
import EscapeRoom.Proofs.Utf8

/-!
# Configurations are kept

A configuration that was saved is loaded again, whatever its texts are made of.  One with a fault is
neither saved nor loaded.

* `Config.ofText?_text` — the text of a configuration gives it back.
* `Config.saved_is_loaded` — saving and loading.
-/

namespace EscapeRoom.Config

open Toml (Spells SettingLines IsBareKey isBareKeyChar)

/-! ### The text -/

theorem isStorable_seconds (n : UInt64) : Toml.isStorable (n.toNat : Int) = true := by
  have hlt := n.toNat_lt
  have hlow : (-(Nat.pow 2 127 : Int)) ≤ 0 := by decide
  have hhigh : (18446744073709551616 : Int) ≤ (Nat.pow 2 128 : Int) := by decide
  simp only [Toml.isStorable, Bool.and_eq_true, decide_eq_true_eq]
  constructor <;> omega

theorem secondsOf?_integer (n : UInt64) : secondsOf? (.integer n.toNat) = some n := by
  have hlt := n.toNat_lt
  have hfits : (0 ≤ (n.toNat : Int) && (n.toNat : Int) < 0x10000000000000000) = true := by
    simp only [Bool.and_eq_true, decide_eq_true_eq]
    constructor <;> omega
  rw [secondsOf?, if_pos hfits, Int.toNat_natCast, UInt64.ofNat_toNat]

theorem isBareKey_of_all {key : String} (hne : key.toList ≠ [])
    (h : key.toList.all isBareKeyChar = true) : IsBareKey key :=
  ⟨hne, fun hc => List.all_eq_true.1 h _ hc⟩

/-- The settings that the text of a configuration spells. -/
def settings (c : Config) : List (String × Toml.Value) :=
  [("server_url", .text c.serverUrl), ("request_timeout_secs", .integer c.timeoutSeconds.toNat),
    ("player_id_path", .text c.playerIdPath.text)]

theorem settingLines_text (c : Config) : SettingLines c.text.toList c.settings := by
  have htext : c.text.toList =
      settingLine "server_url" (Toml.quoted c.serverUrl) ++
        (settingLine "request_timeout_secs" (Json.digits c.timeoutSeconds.toNat) ++
          (settingLine "player_id_path" (Toml.quoted c.playerIdPath.text) ++ ['\n'])) := by
    rw [text, String.toList_ofList]
    simp only [List.append_assoc]
    rfl
  rw [htext]
  refine .cons (isBareKey_of_all (by decide) (by decide)) (Toml.spells_quoted _) ?_
  refine .cons (isBareKey_of_all (by decide) (by decide))
    (Toml.spells_digits (isStorable_seconds _)) ?_
  exact .cons (isBareKey_of_all (by decide) (by decide)) (Toml.spells_quoted _) .nil

/-- The text of a configuration gives it back. -/
theorem ofText?_text (c : Config) : ofText? c.text = some c := by
  have hnodup : (c.settings.map Prod.fst).Nodup :=
    show ["server_url", "request_timeout_secs", "player_id_path"].Nodup by decide
  obtain ⟨d, hd, hvalues⟩ := Toml.Definitions.ofText?_settingLines c.settingLines_text hnodup
  rw [String.ofList_toList] at hd
  have hurl := hvalues ("server_url", .text c.serverUrl) (by simp [settings])
  have hseconds := hvalues ("request_timeout_secs", .integer c.timeoutSeconds.toNat)
    (by simp [settings])
  have hpath := hvalues ("player_id_path", .text c.playerIdPath.text) (by simp [settings])
  rw [ofText?, hd]
  show ((d.field "server_url" default.serverUrl textOf?).bind _) = _
  rw [Toml.Definitions.field_eq hurl, textOf?, Option.bind_some]
  show ((d.field "request_timeout_secs" default.timeoutSeconds secondsOf?).bind _) = _
  rw [Toml.Definitions.field_eq hseconds, secondsOf?_integer, Option.bind_some]
  show ((d.field "player_id_path" default.playerIdPath _).bind _) = _
  rw [Toml.Definitions.field_eq hpath]
  rfl

/-! ### The file -/

theorem fault?_of_checked {c d : Config} (h : c.checked = .ok d) : d.fault? = none := by
  rw [checked, validated] at h
  cases hfault : c.fault? with
  | none =>
      rw [hfault] at h
      cases h
      exact hfault
  | some fault =>
      rw [hfault] at h
      cases h

theorem checked_of_fault?_none {c : Config} (h : c.fault? = none) : c.checked = .ok c := by
  rw [checked, validated, h]
  rfl

/-- Whatever is loaded has no fault. -/
theorem fault?_of_load {σ : Type} (disk : Disk (StateM σ)) (path : Path) (s : σ) {c : Config}
    (h : (load disk path s).1 = .ok c) : c.fault? = none := by
  obtain ⟨present, t, hpresent⟩ : ∃ present t, disk.isPresent path s = (present, t) := ⟨_, _, rfl⟩
  simp only [load, bind, StateT.bind, hpresent] at h
  cases present with
  | false =>
      rw [if_neg Bool.false_ne_true] at h
      have hdefault : default.checked = .ok c := h
      exact fault?_of_checked hdefault
  | true =>
      obtain ⟨content, u, hcontent⟩ : ∃ content u, disk.read path t = (content, u) := ⟨_, _, rfl⟩
      simp only [if_true, bind, StateT.bind, hcontent] at h
      cases hdecode : content.bind Text.Utf8.decode? with
      | none =>
          rw [hdecode] at h
          cases h
      | some text =>
          rw [hdecode] at h
          dsimp only at h
          cases hparse : ofText? (String.ofList text) with
          | none =>
              rw [hparse] at h
              cases h
          | some d =>
              rw [hparse] at h
              exact fault?_of_checked h

/-- A configuration with a fault does not reach the disk. -/
theorem save_of_fault {c : Config} {fault : SettingFault} (h : c.fault? = some fault) {σ : Type}
    (disk : Disk (StateM σ)) (path : Path) (s : σ) :
    c.save disk path s = (.error (.setting fault), s) := by
  rw [save, validated, h]
  rfl

/-- A configuration that was saved has no fault, and the file holds its text. -/
theorem save_eq_ok {c : Config} {path : Path} {fs : FileSystem}
    (h : (c.save FileSystem.disk path fs).1 = .ok ()) :
    c.fault? = none ∧
      (c.save FileSystem.disk path fs).2.content? path = some (Text.Utf8.encode c.text.toList) := by
  cases hfault : c.fault? with
  | some fault =>
      rw [save_of_fault hfault] at h
      cases h
  | none =>
      refine ⟨rfl, ?_⟩
      obtain ⟨outcome, gs, hreplace⟩ : ∃ outcome gs, FileSystem.disk.replace path "toml.tmp"
        (Text.Utf8.encode c.text.toList) fs = (outcome, gs) := ⟨_, _, rfl⟩
      have hcontent : outcome = .ok () →
          gs.content? path = some (Text.Utf8.encode c.text.toList) := by
        rintro rfl
        have hok := congrArg Prod.fst hreplace
        have hafter := FileSystem.content?_replace hok
        rwa [hreplace] at hafter
      simp only [save, validated, hfault] at h ⊢
      split at h
      · cases h
      · next hparent =>
          rw [if_neg hparent]
          simp only [bind, StateT.bind, hreplace] at h ⊢
          cases outcome with
          | error fault => cases h
          | ok => exact hcontent rfl

/-- The settings in a file are loaded. -/
theorem load_of_content {c : Config} {path : Path} {fs : FileSystem} (hvalid : c.fault? = none)
    (h : fs.content? path = some (Text.Utf8.encode c.text.toList)) :
    (load FileSystem.disk path fs).1 = .ok c := by
  have hpresent : (fs.find? path).isSome = true := FileSystem.isSome_find?_of_content? h
  have hdecode : (fs.content? path).bind Text.Utf8.decode? = some c.text.toList := by
    rw [h, Option.bind_some, Text.Utf8.decode?_encode]
  have hparse : ofText? (String.ofList c.text.toList) = some c := by
    rw [String.ofList_toList, ofText?_text]
  simp only [load, bind, StateT.bind, FileSystem.disk, hpresent, if_true, hdecode, hparse]
  exact checked_of_fault?_none hvalid

/-- **A configuration that was saved is loaded again.**  Whatever its texts are made of, whatever
number of seconds it has, and whichever path of a file system it is saved under: if that works, then
what is loaded from there is the same configuration.  One with a fault is not written to any disk,
and nothing with a fault is loaded, whatever the disk holds. -/
theorem saved_is_loaded (c : Config) (path : Path) :
    (∀ fs : FileSystem, (c.save FileSystem.disk path fs).1 = .ok () →
        (load FileSystem.disk path (c.save FileSystem.disk path fs).2).1 = .ok c) ∧
      (∀ fault, c.fault? = some fault → ∀ {σ : Type} (disk : Disk (StateM σ)) (s : σ),
        c.save disk path s = (.error (.setting fault), s)) ∧
      ∀ {σ : Type} (disk : Disk (StateM σ)) (s : σ), (load disk path s).1 = .ok c →
        c.fault? = none := by
  refine ⟨?_, ?_, ?_⟩
  · intro fs hsaved
    obtain ⟨hvalid, hcontent⟩ := save_eq_ok hsaved
    exact load_of_content hvalid hcontent
  · intro fault hfault σ disk s
    exact save_of_fault hfault disk path s
  · intro σ disk s hloaded
    exact fault?_of_load disk path s hloaded

/-- Quotes of both kinds, line breaks, a carriage return and the greatest number of seconds. -/
theorem awkward_config_is_loaded :
    let c : Config :=
      ⟨"http://\x27\x27\x27\"\"\"\n\r\\", 18446744073709551615, ⟨"\n\"\"it\x27s\"\""⟩⟩
    let path : Path := ⟨"new/directory/config.toml"⟩
    let saved := c.save FileSystem.disk path .empty
    saved.1 = .ok () ∧ (load FileSystem.disk path saved.2).1 = .ok c := by
  intro c path saved
  have hsaved : saved.1 = .ok () := by decide +kernel
  exact ⟨hsaved, (saved_is_loaded c path).1 .empty hsaved⟩

end EscapeRoom.Config
