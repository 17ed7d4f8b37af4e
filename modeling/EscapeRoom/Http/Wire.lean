import EscapeRoom.Http.Message
import EscapeRoom.Number.Binary64
import EscapeRoom.Text.Blank

/-!
# Messages as octets

A request goes to the host of its address as lines with the body behind them, and the response comes
back in the same way.  The client asks for HTTP 1.0, so the connection ends with the response.

* `Authority` — the host and the port of an address.
* `HttpRequest.octets` — a request as it is sent.
* `HttpResponse.ofOctets?` — a response as it comes back.
-/

namespace EscapeRoom

/-- A host with a port. -/
structure Authority where
  host : String
  port : UInt16
  deriving DecidableEq, Repr

namespace Authority

/-- The port of a text of digits. -/
def port? (digits : List Char) : Option UInt16 :=
  let n := decimalValue digits
  if !digits.isEmpty && digits.all Char.isDigit && n < 65536 then some (.ofNat n) else none

/-- The host and the port of a text such as `localhost:5000`; the port may be missing. -/
def ofText? (text : List Char) : Option Authority :=
  let host := text.takeWhile (· != ':')
  if host.isEmpty then none
  else
    match text.drop host.length with
    | [] => some ⟨String.ofList host, 80⟩
    | _ :: digits => (port? digits).map fun port => ⟨String.ofList host, port⟩

/-- The text of a host and a port. -/
def text (a : Authority) : String := a.host ++ ":" ++ toString a.port

end Authority

def lineEnd : String := "\r\n"

namespace HttpRequest

/-- Where a request goes; only addresses of plain HTTP lead anywhere. -/
def authority? (r : HttpRequest) : Option Authority :=
  let cs := r.target.toList
  if "http://".toList.isPrefixOf cs then
    Authority.ofText? ((cs.drop 7).takeWhile fun c => c != '/' && c != '?' && c != '#')
  else none

/-- A request as it is sent to a host. -/
def octets (r : HttpRequest) (a : Authority) : List UInt8 :=
  let headers := ("host", a.text) :: ("content-length", toString r.body.length) :: r.headers
  let head :=
    r.method.name ++ " " ++ String.ofList r.resource ++ " HTTP/1.0" ++ lineEnd ++
      String.join (headers.map fun h => h.1 ++ ": " ++ h.2 ++ lineEnd) ++ lineEnd
  Text.Utf8.encode head.toList ++ r.body

end HttpRequest

namespace HttpResponse

/-- The octets before the first empty line and those behind it. -/
def splitHead : List UInt8 → Option (List UInt8 × List UInt8)
  | 13 :: 10 :: 13 :: 10 :: body => some ([], body)
  | b :: rest => (splitHead rest).map fun (head, body) => (b :: head, body)
  | [] => none

/-- The name of a header, in lower case, and its value. -/
def headerOfLine (line : List Char) : String × String :=
  let name := line.takeWhile (· != ':')
  ((String.ofList name).toLower, Text.trimmed (String.ofList (line.drop (name.length + 1))))

/-- The status in the first line of a response. -/
def statusOfLine? (line : List Char) : Option Nat :=
  match Text.words line with
  | _ :: status :: _ =>
      if status.length = 3 && status.all Char.isDigit then some (decimalValue status) else none
  | _ => none

/-- The response of the octets that came back, unless some are missing. -/
def ofOctets? (octets : List UInt8) : Option HttpResponse := do
  let (head, body) ← splitHead octets
  let lines := (Text.splitOn (· == '\n') (Text.Utf8.decodeLossy head)).filter fun line =>
    !Text.isBlankText (String.ofList line)
  let status ← lines.head?.bind statusOfLine?
  let headers := (lines.drop 1).map headerOfLine
  let length :=
    match headers.lookup "content-length" with
    | some n => decimalValue n.toList
    | none => body.length
  if body.length < length then none else some ⟨status, headers, body.take length⟩

end HttpResponse

end EscapeRoom
