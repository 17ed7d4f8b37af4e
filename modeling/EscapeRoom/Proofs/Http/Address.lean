import EscapeRoom.Proofs.Http.Form
import EscapeRoom.Proofs.Message
import Mathlib.Data.List.TakeWhile

/-!
# What arrives of a client's request

A client knows the server under an address with a host and nothing behind it but slashes.  The path
of its request is then the path of the endpoint, its query is read back, and so is the message in
its body unless it is too long.

* `Remote.IsOrigin` — the addresses.
* `Remote.path_getRequest`, `Remote.path_postRequest` — the path that arrives.
* `Remote.queryValue_registerRequest`, `Remote.queryValue_fetchRequest`,
  `Remote.queryOctet_fetchRequest` — the queries.
* `Remote.message_postRequest` — the message in a body.
-/

namespace EscapeRoom

open Json (Codec DecodeError)

/-! ### Targets -/

/-- A character with which the host of an address ends. -/
def HttpRequest.endsHost (c : Char) : Bool := c == '/' || c == '?' || c == '#'

namespace Remote

/-- An address of a host, perhaps with slashes behind it.  Anything may stand for the host, with its
port, that has no character with which a host ends; so these are more addresses than a client can
connect to, and all of those without a path. -/
def IsOrigin (base : String) : Prop :=
  ∃ (scheme host : List Char) (slashes : Nat),
    (scheme = "http://".toList ∨ scheme = "https://".toList) ∧ host ≠ [] ∧
      (∀ c ∈ host, HttpRequest.endsHost c = false) ∧
      base.toList = scheme ++ (host ++ List.replicate slashes '/')

theorem dropWhile_slashes (n : Nat) {c : Char} (hc : c ≠ '/') (cs : List Char) :
    (List.replicate n '/' ++ c :: cs).dropWhile (· == '/') = c :: cs := by
  induction n with
  | zero =>
      rw [List.replicate_zero, List.nil_append, List.dropWhile_cons_of_neg (by simpa using hc)]
  | succ n ih => rw [List.replicate_succ, List.cons_append, List.dropWhile_cons_of_pos rfl, ih]

/-- Only the slashes are dropped. -/
theorem toList_withoutSlashes {base : String} {scheme host : List Char} {slashes : Nat}
    (hhost : host ≠ []) (hends : ∀ c ∈ host, HttpRequest.endsHost c = false)
    (hbase : base.toList = scheme ++ (host ++ List.replicate slashes '/')) :
    (withoutSlashes base).toList = scheme ++ host := by
  obtain ⟨front, last, rfl⟩ : ∃ front last, host = front ++ [last] :=
    ⟨host.dropLast, host.getLast hhost, (List.dropLast_append_getLast hhost).symm⟩
  have hlast : last ≠ '/' := by
    rintro rfl
    exact absurd (hends '/' (by simp)) (by decide)
  have hreverse : base.toList.reverse =
      List.replicate slashes '/' ++ last :: (front.reverse ++ scheme.reverse) := by
    rw [hbase]
    simp
  rw [withoutSlashes, String.toList_ofList, hreverse, dropWhile_slashes slashes hlast]
  simp

end Remote

namespace HttpRequest

theorem dropWhile_host {host : List Char} (hends : ∀ c ∈ host, endsHost c = false)
    (tail : List Char) :
    (host ++ '/' :: tail).dropWhile (fun c => c != '/' && c != '?' && c != '#') = '/' :: tail := by
  have hkept : ∀ c ∈ host, (c != '/' && c != '?' && c != '#') = true := by
    intro c hc
    have h := hends c hc
    rw [endsHost, Bool.or_eq_false_iff, Bool.or_eq_false_iff] at h
    rw [bne, bne, bne, h.1.1, h.1.2, h.2]
    rfl
  rw [List.dropWhile_append_of_pos hkept, List.dropWhile_cons_of_neg (by decide)]

/-- What stands behind the host of a whole address. -/
theorem withoutHost_append {scheme host : List Char}
    (hscheme : scheme = "http://".toList ∨ scheme = "https://".toList)
    (hends : ∀ c ∈ host, endsHost c = false) (tail : List Char) :
    withoutHost (scheme ++ (host ++ '/' :: tail)) = '/' :: tail := by
  have hafter := dropWhile_host hends tail
  rcases hscheme with rfl | rfl
  · show (if ((host ++ '/' :: tail).dropWhile _).head? == some '/' then
      (host ++ '/' :: tail).dropWhile _ else _) = _
    rw [hafter]
    rfl
  · show (if ((host ++ '/' :: tail).dropWhile _).head? == some '/' then
      (host ++ '/' :: tail).dropWhile _ else _) = _
    rw [hafter]
    rfl

/-- A target without a fragment is kept up to its end. -/
theorem resource_eq {r : HttpRequest} {scheme host tail : List Char}
    (hscheme : scheme = "http://".toList ∨ scheme = "https://".toList)
    (hends : ∀ c ∈ host, endsHost c = false) (htail : ∀ c ∈ tail, c ≠ '#')
    (htarget : r.target.toList = scheme ++ (host ++ '/' :: tail)) : r.resource = '/' :: tail := by
  rw [resource, htarget, withoutHost_append hscheme hends]
  refine List.takeWhile_eq_self_iff.2 fun c hc => ?_
  rcases List.mem_cons.1 hc with rfl | hc
  · decide
  · simpa using htail c hc

theorem path_of_resource {r : HttpRequest} {path query : List Char} (hpath : ∀ c ∈ path, c ≠ '?')
    (h : r.resource = path ++ '?' :: query) :
    r.path = String.ofList path ∧ r.query = String.ofList query := by
  have hkept : ∀ c ∈ path, (c != '?') = true := fun c hc => by simpa using hpath c hc
  constructor
  · rw [HttpRequest.path, h, List.takeWhile_append_of_pos hkept,
      List.takeWhile_cons_of_neg (by decide), List.append_nil]
  · rw [HttpRequest.query, h, List.dropWhile_append_of_pos hkept,
      List.dropWhile_cons_of_neg (by decide)]
    rfl

end HttpRequest

theorem Endpoint.path_eq_cons (e : Endpoint) :
    ∃ tail, e.path.toList = '/' :: tail ∧ (∀ c ∈ e.path.toList, c ≠ '?') ∧ ∀ c ∈ tail, c ≠ '#' := by
  cases e <;>
    exact ⟨_, rfl, List.forall_mem_ne'.2 (by decide), List.forall_mem_ne'.2 (by decide)⟩

theorem Endpoint.ofPath?_path (e : Endpoint) : ofPath? e.path = some e := by
  cases e <;> decide

namespace Remote

/-! ### Requests without a body -/

section
variable {base : String} (hbase : IsOrigin base) (e : Endpoint)
include hbase

theorem getRequest_parts (query : List (String × String)) :
    (getRequest base e query).path = e.path ∧
      (getRequest base e query).query = Form.write query := by
  obtain ⟨scheme, host, slashes, hscheme, hhost, hends, hlist⟩ := hbase
  obtain ⟨tail, htail, hquestion, hhash⟩ := e.path_eq_cons
  have hquery : (Form.write query).toList = Form.writePairs query := String.toList_ofList
  have htarget : (getRequest base e query).target.toList =
      scheme ++ (host ++ '/' :: (tail ++ '?' :: Form.writePairs query)) := by
    show (withoutSlashes base ++ e.path ++ "?" ++ Form.write query).toList = _
    rw [String.toList_append, String.toList_append, String.toList_append,
      toList_withoutSlashes hhost hends hlist, htail, hquery]
    simp
  have hkept : ∀ c ∈ tail ++ '?' :: Form.writePairs query, c ≠ '#' := by
    intro c hc
    rw [List.mem_append, List.mem_cons] at hc
    rcases hc with hc | rfl | hc
    · exact hhash c hc
    · decide
    · exact Form.not_hash_writePairs query c hc
  have hresource := HttpRequest.resource_eq hscheme hends hkept htarget
  have hsplit : (getRequest base e query).resource =
      e.path.toList ++ '?' :: Form.writePairs query := by
    rw [hresource, htail]
    rfl
  have hparts := HttpRequest.path_of_resource hquestion hsplit
  rw [String.ofList_toList] at hparts
  exact hparts

/-- A question arrives at its endpoint. -/
theorem path_getRequest (query : List (String × String)) :
    (getRequest base e query).path = e.path :=
  (getRequest_parts hbase e query).1

theorem pairs_getRequest (query : List (String × String)) :
    Form.read (getRequest base e query).query = query := by
  rw [(getRequest_parts hbase e query).2, Form.read_write]

/-- A message arrives at its endpoint. -/
theorem path_postRequest {α : Type} (codec : Codec α) (a : α) :
    (postRequest base e codec a).path = e.path := by
  obtain ⟨scheme, host, slashes, hscheme, hhost, hends, hlist⟩ := hbase
  obtain ⟨tail, htail, hquestion, hhash⟩ := e.path_eq_cons
  have htarget : (postRequest base e codec a).target.toList = scheme ++ (host ++ '/' :: tail) := by
    show (withoutSlashes base ++ e.path).toList = _
    rw [String.toList_append, toList_withoutSlashes hhost hends hlist, htail]
    simp
  have hresource := HttpRequest.resource_eq hscheme hends hhash htarget
  have hall : (postRequest base e codec a).resource.takeWhile (· != '?') = e.path.toList := by
    rw [hresource, ← htail]
    exact List.takeWhile_eq_self_iff.2 fun c hc => by simpa using hquestion c hc
  rw [HttpRequest.path, hall, String.ofList_toList]

theorem queryValue_registerRequest (player : String) :
    (registerRequest base player).queryValue "playerId" = .ok player := by
  rw [HttpRequest.queryValue, registerRequest, pairs_getRequest hbase]
  rfl

theorem queryValue_fetchRequest (player : String) (level : Level) :
    (fetchRequest base player level).queryValue "playerId" = .ok player := by
  rw [HttpRequest.queryValue, fetchRequest, pairs_getRequest hbase]
  rfl

theorem queryOctet_fetchRequest (player : String) (level : Level) :
    (fetchRequest base player level).queryOctet "level" = .ok level.number := by
  have hvalue : (fetchRequest base player level).queryValue "level" =
      .ok (toString level.number) := by
    rw [HttpRequest.queryValue, fetchRequest, pairs_getRequest hbase]
    rfl
  have hread : octetOfText? (toString level.number) = some level.number := by
    cases level <;> decide +kernel
  rw [HttpRequest.queryOctet, hvalue]
  simp only [bind, Except.bind, hread]
  rfl

end

/-! ### Messages -/

/-- What a reader makes of a body depends on its text alone, unless it is too long. -/
theorem message_postRequest {α β : Type} (base : String) (e : Endpoint) (codec : Codec α) (a : α)
    (reader : Codec β) :
    (postRequest base e codec a).message reader =
      if bodyLimit < (Text.Utf8.encode (codec.encode a).compact).length then
        .error .payloadTooLarge
      else
        match reader.decoder.run (codec.encode a).compact with
        | .ok b => .ok b
        | .error .malformed => .error .badRequest
        | .error _ => .error .unprocessable := by
  have hjson :
      ((postRequest base e codec a).header? "content-type").any MediaType.isJson = true := by
    have hheader : (postRequest base e codec a).header? "content-type" =
        some "application/json" := by
      show ([("content-type", "application/json")].find? fun h =>
        h.1.toLower == "content-type").map Prod.snd = _
      decide +kernel
    rw [hheader]
    show MediaType.isJson "application/json" = true
    decide +kernel
  have hbody : (postRequest base e codec a).body = Text.Utf8.encode (codec.encode a).compact := rfl
  rw [HttpRequest.message, hjson, hbody, Json.Decoder.runOctets_encode]
  rfl

/-- A message is read back, unless it is too long. -/
theorem message_postRequest_self {α : Type} (base : String) (e : Endpoint) {codec : Codec α}
    (h : codec.Lawful) (a : α) :
    (postRequest base e codec a).message codec =
      if bodyLimit < (Text.Utf8.encode (codec.encode a).compact).length then
        .error .payloadTooLarge
      else .ok a := by
  rw [message_postRequest, h.run_compact]

end Remote

end EscapeRoom
