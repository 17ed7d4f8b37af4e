/-!
# Words of a command line

The words of a command line are options, with one hyphen and letters or two hyphens and a name, and
operands.  An option may take a value, which is the next word or stands after an equals sign.  Two
hyphens alone end the options.

* `Grammar` — the options and operands that are admitted.
* `Grammar.scan` — sorting the words.
* `Interruption` — why there is nothing to carry out.
-/

namespace EscapeRoom.CommandLine

/-- Why a command line is not carried out. -/
inductive Interruption
  /-- It asks for help. -/
  | help
  /-- It asks for the version. -/
  | version
  /-- It is not admitted. -/
  | misuse
  deriving DecidableEq, Repr

/-- An option. -/
structure Switch where
  /-- The name after two hyphens. -/
  name : String
  /-- The letter after one hyphen, if it has one; then it takes no value. -/
  letter : Option Char
  /-- The values that it takes, if it takes any. -/
  accepts : Option (String → Bool)

/-- An option without a value. -/
def Switch.flag (name : String) : Switch := ⟨name, none, none⟩

/-- The options and operands of a command. -/
structure Grammar where
  switches : List Switch
  /-- How many operands there may be. -/
  operands : Nat
  /-- The words that begin the command line of another command. -/
  subcommands : List String
  /-- Whether the version can be asked for. -/
  hasVersion : Bool

/-- What the words of a command line give. -/
structure Given where
  flags : List String
  values : List (String × String)
  operands : List String
  /-- The word that begins another command line, and the words after it. -/
  subcommand : Option (String × List String)
  deriving DecidableEq, Repr

namespace Given

/-- What no word gives. -/
def empty : Given := ⟨[], [], [], none⟩

/-- Whether an option without a value is given. -/
def has (g : Given) (name : String) : Bool := g.flags.contains name

def value? (g : Given) (name : String) : Option String := g.values.lookup name

/-- Adds an option, which may be given only once. -/
def addFlag (g : Given) (name : String) : Except Interruption Given :=
  if g.has name then .error .misuse else .ok { g with flags := g.flags ++ [name] }

/-- Adds an option with its value, which may be given only once. -/
def addValue (g : Given) (switch : Switch) (value : String) : Except Interruption Given :=
  if (g.value? switch.name).isSome || !switch.accepts.any (· value) then .error .misuse
  else .ok { g with values := g.values ++ [(switch.name, value)] }

end Given

/-- What the next word can be. -/
inductive Expected
  | anything
  /-- The value of an option. -/
  | value (switch : Switch)
  /-- An operand. -/
  | operand

/-- Whether a word is made like an option. -/
def isOption (word : String) : Bool := word.toList.head? == some '-' && 1 < word.length

/-- The name of a word after its two hyphens, and what stands after an equals sign. -/
def splitValue (cs : List Char) : String × Option String :=
  let name := cs.takeWhile (· != '=')
  let value :=
    match cs.drop name.length with
    | [] => none
    | _ :: value => some (String.ofList value)
  (String.ofList name, value)

namespace Grammar

/-- Adds the options of a word with one hyphen. -/
def addLetters (g : Grammar) (given : Given) : List Char → Except Interruption Given
  | [] => .ok given
  | c :: rest =>
      if c = 'h' then .error .help
      else if c = 'V' && g.hasVersion then .error .version
      else
        match g.switches.find? fun s => s.letter == some c with
        | none => .error .misuse
        | some s => do g.addLetters (← given.addFlag s.name) rest

/-- Adds the option of a word with two hyphens. -/
def addName (g : Grammar) (given : Given) (name : String) (value : Option String) :
    Except Interruption (Given × Expected) :=
  if name = "help" then .error (if value.isSome then .misuse else .help)
  else if name = "version" && g.hasVersion then
    .error (if value.isSome then .misuse else .version)
  else
    match g.switches.find? fun s => s.name == name with
    | none => .error .misuse
    | some s =>
        match s.accepts, value with
        | none, none => do return (← given.addFlag name, .anything)
        | none, some _ => .error .misuse
        | some _, none => .ok (given, .value s)
        | some _, some value => do return (← given.addValue s value, .anything)

/-- Adds an operand. -/
def addOperand (g : Grammar) (given : Given) (word : String) : Except Interruption Given :=
  if given.operands.length < g.operands then
    .ok { given with operands := given.operands ++ [word] }
  else .error .misuse

/-- Sorts words.  They are read in order, so of two faults the first one counts. -/
def scan (g : Grammar) (given : Given) : Expected → List String → Except Interruption Given
  | .value _, [] => .error .misuse
  | _, [] => .ok given
  | .value switch, word :: rest =>
      if isOption word then .error .misuse
      else do g.scan (← given.addValue switch word) .anything rest
  | .operand, word :: rest => do g.scan (← g.addOperand given word) .operand rest
  | .anything, word :: rest =>
      if word = "--" then g.scan given .operand rest
      else if isOption word then
        match word.toList with
        | '-' :: '-' :: cs => do
            let (name, value) := splitValue cs
            let (given, expected) ← g.addName given name value
            g.scan given expected rest
        | cs => do g.scan (← g.addLetters given (cs.drop 1)) .anything rest
      else if g.subcommands.contains word then .ok { given with subcommand := some (word, rest) }
      else do g.scan (← g.addOperand given word) .anything rest

end Grammar

end EscapeRoom.CommandLine
