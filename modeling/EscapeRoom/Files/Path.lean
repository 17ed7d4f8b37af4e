import EscapeRoom.Text.Blank

/-!
# Paths

A path is a text whose names are separated by slashes.  Repeated slashes and the name `.` count for
nothing, except for a `.` in front, and operations keep the rest of the text as it is.

* `Path.names` — the names to walk along.
* `Path.fileName?`, `Path.parent?` — the last name, and the path before it.
* `Path.withExtension` — the same path with another ending of the last name.
-/

namespace EscapeRoom

/-- A path as typed. -/
structure Path where
  text : String
  deriving DecidableEq, Repr

namespace Path

/-- Whether a path starts at the root. -/
def isAbsolute (p : Path) : Bool := p.text.toList.head? == some '/'

/-- The texts between the slashes, after the slash of the root. -/
def segments (p : Path) : List String :=
  let cs := p.text.toList
  (Text.splitOn (· == '/') (if p.isAbsolute then cs.drop 1 else cs)).map String.ofList

/-- A segment that leads nowhere. -/
def isIdle (segment : String) : Bool := segment == "" || segment == "."

/-- The names to walk along. -/
def names (p : Path) : List String := p.segments.filter fun s => !isIdle s

/-- Segments without the idle ones at their end. -/
def trimEnd (segments : List String) : List String := (segments.reverse.dropWhile isIdle).reverse

/-- The segments up to the last name; a `.` in front of a relative path counts as a name. -/
def core (absolute : Bool) : List String → List String
  | "." :: rest => if absolute then trimEnd ("." :: rest) else "." :: trimEnd rest
  | segments => trimEnd segments

def ofSegments (absolute : Bool) (segments : List String) : Path :=
  ⟨(if absolute then "/" else "") ++ "/".intercalate segments⟩

/-- The last name of a path, unless it is `.` or `..`. -/
def fileName? (p : Path) : Option String :=
  (core p.isAbsolute p.segments).getLast?.filter fun name => name != "." && name != ".."

/-- The path before the last name. -/
def parent? (p : Path) : Option Path :=
  let segments := core p.isAbsolute p.segments
  if segments.isEmpty then none
  else some (ofSegments p.isAbsolute (core p.isAbsolute segments.dropLast))

/-- A name up to its last point; a point in front does not count. -/
def stem (name : String) : String :=
  let cs := name.toList
  let before := (cs.reverse.dropWhile (· != '.')).drop 1
  if before.isEmpty then name else String.ofList before.reverse

/-- The path with the ending of its last name replaced; without a last name, the same path. -/
def withExtension (p : Path) (extension : String) : Path :=
  match p.fileName? with
  | none => p
  | some name =>
      ofSegments p.isAbsolute
        ((core p.isAbsolute p.segments).dropLast ++ [stem name ++ "." ++ extension])

/-- Whether a path can only mean a directory. -/
def wantsDirectory (p : Path) : Bool := p.segments.getLast?.any isIdle

end Path

end EscapeRoom
