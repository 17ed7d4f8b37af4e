import EscapeRoom.Text.Utf8

/-!
# HTTP messages

Requests and responses as far as the progress server and its clients look at them.

* `HttpRequest`, `HttpResponse` — the messages.
* `HttpRequest.path`, `HttpRequest.query` — the parts of a request's target.
* `HttpRequest.header?` — a header, its name in any case.
-/

namespace EscapeRoom

inductive HttpMethod
  | get
  | head
  | post
  | options
  | other (name : String)
  deriving DecidableEq, Repr

def HttpMethod.ofName (name : String) : HttpMethod :=
  if name = "GET" then get
  else if name = "HEAD" then head
  else if name = "POST" then post
  else if name = "OPTIONS" then options
  else other name

def HttpMethod.name : HttpMethod → String
  | get => "GET"
  | head => "HEAD"
  | post => "POST"
  | options => "OPTIONS"
  | other name => name

structure HttpRequest where
  method : HttpMethod
  /-- The path with the query, or a whole address. -/
  target : String
  headers : List (String × String)
  body : List UInt8
  deriving DecidableEq, Repr

structure HttpResponse where
  status : Nat
  headers : List (String × String)
  body : List UInt8
  deriving DecidableEq, Repr

namespace HttpRequest

/-- A target without the scheme and the host of a whole address. -/
def withoutHost (target : List Char) : List Char :=
  let rest :=
    if "http://".toList.isPrefixOf target then some (target.drop 7)
    else if "https://".toList.isPrefixOf target then some (target.drop 8)
    else none
  match rest with
  | none => target
  | some rest =>
      let after := rest.dropWhile fun c => c != '/' && c != '?' && c != '#'
      if after.head? == some '/' then after else '/' :: after

/-- The target up to its fragment. -/
def resource (r : HttpRequest) : List Char :=
  (withoutHost r.target.toList).takeWhile (· != '#')

/-- The path of the target. -/
def path (r : HttpRequest) : String := String.ofList (r.resource.takeWhile (· != '?'))

/-- The query of the target; without a question mark it is empty. -/
def query (r : HttpRequest) : String := String.ofList ((r.resource.dropWhile (· != '?')).drop 1)

/-- The first header with a name in lower case. -/
def header? (r : HttpRequest) (name : String) : Option String :=
  (r.headers.find? fun h => h.1.toLower == name).map Prod.snd

end HttpRequest

end EscapeRoom
