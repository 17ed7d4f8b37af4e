import EscapeRoom.Files.Disk
import EscapeRoom.Number.Digit
import EscapeRoom.Text.Blank
import EscapeRoom.Text.Utf8

/-!
# Player ids

A file keeps the id under which a player's progress is stored.  The first time, a new id is made.

* `PlayerId.load` — the id of a file, or a new id that goes into it.
* `PlayerId.ofRandom` — making an id.
* `PlayerIdFault` — why there is none.
-/

namespace EscapeRoom

/-- Why a player id is not to be had. -/
inductive PlayerIdFault
  | read (path : Path)
  | tooShort (path : Path)
  | createDirectories (directory : Path)
  | write (path : Path)
  deriving DecidableEq, Repr

/-- The least length of a player id: in octets where it is kept, in characters on the server. -/
def PlayerId.minLength : Nat := 3

/-- The text of a fault. -/
def PlayerIdFault.message : PlayerIdFault → String
  | read path => "read " ++ path.text
  | tooShort path =>
      "player id in " ++ path.text ++ " must be at least " ++ toString PlayerId.minLength ++
        " characters"
  | createDirectories directory => "create directory " ++ directory.text
  | write path => "write " ++ path.text

namespace PlayerId

/-- The id in a file's content, which may have blanks around it. -/
def ofContent? (content : List Char) : Option String :=
  let id := Text.trim content
  if (Text.Utf8.encode id).length < minLength then none else some (String.ofList id)

/-- Two digits for each octet, in lower case. -/
def digits (octets : List UInt8) : List Char :=
  octets.flatMap fun b => [Digit.lower (b.toNat / 16), Digit.lower (b.toNat % 16)]

/-- A new id made of 16 random octets: digits in five groups, of which the third and the fourth
begin with the marks of a random identifier. -/
def ofRandom (octets : List UInt8) : String :=
  let marked := (octets.modify 6 fun b => b % 16 + 0x40).modify 8 fun b => b % 64 + 0x80
  let group (start length : Nat) : String :=
    String.ofList (digits ((marked.drop start).take length))
  "-".intercalate [group 0 4, group 4 2, group 6 2, group 8 2, group 10 6]

variable {m : Type → Type} [Monad m]

/-- The id that a file keeps; without the file, the id that `fresh` makes. -/
def load (disk : Disk m) (fresh : m String) (path : Path) : m (Except PlayerIdFault String) := do
  if ← disk.isPresent path then
    match (← disk.read path).bind Text.Utf8.decode? with
    | none => return .error (.read path)
    | some content =>
        match ofContent? content with
        | none => return .error (.tooShort path)
        | some id => return .ok id
  else
    let id ← fresh
    match ← disk.prepare path with
    | .error directory => return .error (.createDirectories directory)
    | .ok () =>
        match ← disk.write path (Text.Utf8.encode (id.toList ++ ['\n'])) with
        | .error _ => return .error (.write path)
        | .ok () => return .ok id

end PlayerId

end EscapeRoom
