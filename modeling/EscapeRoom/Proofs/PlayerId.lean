import EscapeRoom.Proofs.FileSystem
import EscapeRoom.Proofs.WireAgreement

/-!
# Player ids of the client and of the server

A client takes any id of at least three octets from the file that keeps it, and the server asks for
three characters.  An id in which a character has several octets may be long enough for the one and
too short for the other.

* `PlayerId.load_cases`, `PlayerId.load_of_content` — the ids that a client takes.
* `Remote.status_respond_request` — when the server calls a request a bad one.
* `PlayerId.taken_and_refused_iff` — the files whose ids the client takes and the server refuses.
-/

namespace EscapeRoom

/-! ### What the client takes -/

namespace PlayerId

theorem ofContent?_eq_some_iff {content : List Char} {id : String} :
    ofContent? content = some id ↔
      id.toList = Text.trim content ∧ minLength ≤ (Text.Utf8.encode id.toList).length := by
  simp only [ofContent?]
  constructor
  · intro h
    split at h
    · cases h
    · next hlength =>
        cases h
        rw [String.toList_ofList]
        exact ⟨rfl, Nat.not_lt.1 hlength⟩
  · rintro ⟨htrim, hlength⟩
    rw [htrim] at hlength
    rw [if_neg (Nat.not_lt.2 hlength), ← htrim, String.ofList_toList]

/-- A new id is long enough whatever it is made of, because of the lines between its groups. -/
theorem isPlayerId_ofRandom (octets : List UInt8) : isPlayerId (ofRandom octets) = true := by
  have hlines : ∀ a b c d e : String, 4 ≤ ("-".intercalate [a, b, c, d, e]).length := by
    intro a b c d e
    rw [← String.length_toList, String.toList_intercalate]
    simp [List.intercalate]
    omega
  have hmin : minLength ≤ 4 := by decide
  rw [isPlayerId, decide_eq_true_eq, ofRandom]
  exact Nat.le_trans hmin (hlines _ _ _ _ _)

section
variable {fs : FileSystem} (fresh : StateM FileSystem String) {path : Path}

/-- A file that is there is read. -/
theorem load_of_present (h : (fs.find? path).isSome = true) :
    (load FileSystem.disk fresh path fs).1 =
      match (fs.content? path).bind Text.Utf8.decode? with
      | none => .error (.read path)
      | some content =>
          match ofContent? content with
          | none => .error (.tooShort path)
          | some id => .ok id := by
  simp only [load, bind, StateT.bind, FileSystem.disk, h, if_true]
  cases (fs.content? path).bind Text.Utf8.decode? with
  | none => rfl
  | some content =>
      dsimp only
      cases ofContent? content <;> rfl

/-- Without a file, an id that is taken is the new one. -/
theorem load_of_missing (h : (fs.find? path).isSome = false) {id : String}
    (hload : (load FileSystem.disk fresh path fs).1 = .ok id) : (fresh fs).1 = id := by
  obtain ⟨made, after, hfresh⟩ : ∃ made after, fresh fs = (made, after) := ⟨_, _, rfl⟩
  obtain ⟨prepared, gs, hprepare⟩ :
    ∃ prepared gs, FileSystem.disk.prepare path after = (prepared, gs) := ⟨_, _, rfl⟩
  have hpresent : FileSystem.disk.isPresent path fs = (false, fs) := h ▸ rfl
  simp only [load, bind, StateT.bind, hpresent, hfresh, hprepare, Bool.false_eq_true,
    if_false] at hload
  cases prepared with
  | error directory => cases hload
  | ok =>
      obtain ⟨written, hs, hwrite⟩ : ∃ written hs, FileSystem.disk.write path
        (Text.Utf8.encode (made.toList ++ ['\n'])) gs = (written, hs) := ⟨_, _, rfl⟩
      simp only [bind, StateT.bind, hwrite] at hload
      cases written with
      | error fault => cases hload
      | ok =>
          cases hload
          rw [hfresh]

/-- An id that is taken comes from the file or is a new one. -/
theorem load_cases {id : String} (hload : (load FileSystem.disk fresh path fs).1 = .ok id) :
    (∃ octets content, fs.content? path = some octets ∧
        Text.Utf8.decode? octets = some content ∧ id.toList = Text.trim content ∧
        minLength ≤ (Text.Utf8.encode id.toList).length) ∨
      (fs.find? path).isSome = false ∧ (fresh fs).1 = id := by
  cases hpresent : (fs.find? path).isSome with
  | false => exact .inr ⟨rfl, load_of_missing fresh hpresent hload⟩
  | true =>
      rw [load_of_present fresh hpresent] at hload
      split at hload
      · cases hload
      · next content hcontent =>
          obtain ⟨octets, hoctets, hdecode⟩ := Option.bind_eq_some_iff.1 hcontent
          split at hload
          · cases hload
          · next kept hkept =>
              cases hload
              exact .inl ⟨octets, content, hoctets, hdecode, ofContent?_eq_some_iff.1 hkept⟩

/-- Every id in a file that is long enough in octets is taken. -/
theorem load_of_content {octets : List UInt8} {content : List Char} {id : String}
    (hoctets : fs.content? path = some octets) (hdecode : Text.Utf8.decode? octets = some content)
    (hid : id.toList = Text.trim content)
    (hlength : minLength ≤ (Text.Utf8.encode id.toList).length) :
    (load FileSystem.disk fresh path fs).1 = .ok id := by
  have hcontent : (fs.content? path).bind Text.Utf8.decode? = some content := by
    rw [hoctets, Option.bind_some, hdecode]
  rw [load_of_present fresh (FileSystem.isSome_find?_of_content? hoctets)]
  simp only [hcontent, ofContent?_eq_some_iff.2 ⟨hid, hlength⟩]

end

end PlayerId

/-! ### What the server refuses -/

/-- A request with well-formed values is a bad one exactly when its player id is too short, unless
its body is not even read. -/
theorem Remote.status_respond_request {base : String} (hbase : IsOrigin base) (db : Database)
    (saved : Bool) (operation : StoreOperation) :
    (db.respond saved (request base operation)).status = Refusal.badRequest.status ↔
      isPlayerId operation.player = false ∧ (request base operation).body.length ≤ bodyLimit := by
  have hpath := ofPath?_request operation hbase
  have haccepts : operation.endpoint.accepts (request base operation).method = true :=
    accepts_request operation
  rw [db.status_respond saved _ (method_request operation)]
  by_cases hsize : (request base operation).body.length ≤ bodyLimit
  · have hhandle := handle_request db hbase hsize
    by_cases hplayer : isPlayerId operation.player = true
    · obtain ⟨handled, hhandled, -, -⟩ := readAnswer_handled base db hplayer
      have hok := hhandle.trans hhandled
      have hhandling := db.handling_handle (request base operation) operation.endpoint
      rw [hok] at hhandling
      rw [db.answer_of_ok hpath haccepts hok, hhandling.status_eq, hplayer]
      refine iff_of_false ?_ fun h => Bool.noConfusion h.1
      split <;> decide
    · have hrefused := hhandle.trans (db.handleOperation_refused hplayer)
      rw [db.answer_of_refused hpath haccepts hrefused]
      exact iff_of_true rfl ⟨Bool.eq_false_iff.2 hplayer, hsize⟩
  · have hlong := handle_request_of_long db (Nat.not_le.1 hsize)
    rw [db.answer_of_refused hpath haccepts hlong]
    have hstatus : Refusal.payloadTooLarge.status ≠ Refusal.badRequest.status := by decide
    exact iff_of_false hstatus fun h => hsize h.2

/-! ### The two together -/

namespace PlayerId

/-- **When the server refuses an id that the client takes.**  Whatever a file system holds at the
path of the id, and whatever random octets a new id is made of: the client takes an id that the
server does not accept exactly when the text in the file, without the blanks around it, has fewer
than three characters but at least three octets.  A new id is never of that kind, nor is one in
ASCII.  A client's request is a bad one exactly when the server does not accept its player id,
unless the body is too long to be read. -/
theorem taken_and_refused_iff (fs : FileSystem) (random : StateM FileSystem (List UInt8))
    (path : Path) :
    let taken := (load FileSystem.disk (do return ofRandom (← random)) path fs).1
    (∀ id, taken = .ok id ∧ isPlayerId id = false ↔
      ∃ octets content, fs.content? path = some octets ∧
        Text.Utf8.decode? octets = some content ∧ id.toList = Text.trim content ∧
        id.length < minLength ∧ minLength ≤ (Text.Utf8.encode id.toList).length) ∧
      (∀ id, taken = .ok id →
        (fs.find? path).isSome = false ∨ (∀ c ∈ id.toList, c.toNat < 0x80) →
        isPlayerId id = true) ∧
      ∀ (base : String), Remote.IsOrigin base → ∀ (db : Database) (saved : Bool)
        (operation : StoreOperation),
        ((db.respond saved (Remote.request base operation)).status = Refusal.badRequest.status ↔
          isPlayerId operation.player = false ∧
            (Remote.request base operation).body.length ≤ bodyLimit) := by
  intro taken
  have hshort : ∀ id : String, isPlayerId id = false ↔ id.length < minLength := by
    intro id
    rw [isPlayerId, decide_eq_false_iff_not, Nat.not_le]
  refine ⟨?_, ?_, ?_⟩
  · intro id
    rw [hshort]
    constructor
    · rintro ⟨htaken, hfew⟩
      rcases load_cases _ htaken with ⟨octets, content, hoctets, hdecode, htrim, hlong⟩ | ⟨-, hmade⟩
      · exact ⟨octets, content, hoctets, hdecode, htrim, hfew, hlong⟩
      · have haccepted := isPlayerId_ofRandom (random fs).1
        have hid : ofRandom (random fs).1 = id := hmade
        rw [hid, (hshort id).2 hfew] at haccepted
        exact absurd haccepted Bool.false_ne_true
    · rintro ⟨octets, content, hoctets, hdecode, htrim, hfew, hlong⟩
      exact ⟨load_of_content _ hoctets hdecode htrim hlong, hfew⟩
  · intro id htaken hcase
    rcases load_cases _ htaken with ⟨octets, content, hoctets, -, -, hlong⟩ | ⟨-, hmade⟩
    · rcases hcase with hmissing | hascii
      · rw [FileSystem.isSome_find?_of_content? hoctets] at hmissing
        cases hmissing
      · rw [Text.Utf8.length_encode_ascii hascii, String.length_toList] at hlong
        exact decide_eq_true hlong
    · rw [← hmade]
      exact isPlayerId_ofRandom (random fs).1
  · intro base hbase db saved operation
    exact Remote.status_respond_request hbase db saved operation

/-- Two characters of two octets each are taken and refused. -/
theorem taken_and_refused_two_letters :
    let path : Path := ⟨"player_id"⟩
    let fs := FileSystem.empty.put ["player_id"] (.file (Text.Utf8.encode "éé\n".toList))
    let random : StateM FileSystem (List UInt8) := pure (List.replicate 16 0)
    (load FileSystem.disk (do return ofRandom (← random)) path fs).1 = .ok "éé" ∧
      isPlayerId "éé" = false := by
  intro path fs random
  refine ((taken_and_refused_iff fs random path).1 "éé").2
    ⟨Text.Utf8.encode "éé\n".toList, "éé\n".toList, ?_, ?_, ?_, ?_, ?_⟩ <;> decide +kernel

/-- Not every id that the client takes is accepted by the server. -/
theorem taken_id_refused :
    ¬ ∀ (fs : FileSystem) (random : StateM FileSystem (List UInt8)) (path : Path) (id : String),
      (load FileSystem.disk (do return ofRandom (← random)) path fs).1 = .ok id →
      isPlayerId id = true := by
  intro h
  have haccepted := h (FileSystem.empty.put ["player_id"] (.file (Text.Utf8.encode "éé".toList)))
    (pure []) ⟨"player_id"⟩ "éé" (by decide +kernel)
  exact absurd haccepted (by decide +kernel)

end PlayerId

end EscapeRoom
