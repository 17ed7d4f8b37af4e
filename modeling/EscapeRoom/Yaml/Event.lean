import EscapeRoom.Yaml.Fault
import EscapeRoom.Yaml.Token

/-!
# Events: the structure of a document

Events are the nodes of a document in the order in which they begin and end.  They follow from the
tokens by a grammar that looks one token ahead.  The grammar is a stack machine: `Expectation` says
what may come next, and the rest of the stack what may come after that.

* `Event.step` — one event from one expectation.
* `Stream.ofTokens` — the events of the first document, up to a fault if there is one.
-/

namespace EscapeRoom.Yaml

/-- The anchor and the resolved tag of a node. -/
structure Properties where
  anchor : Option (List Char)
  tag : Option (List UInt8)
  deriving DecidableEq

/-- No anchor and no tag. -/
def Properties.none : Properties := ⟨.none, .none⟩

/-- The begin or end of a node. -/
inductive Event
  | alias (name : List Char)
  | scalar (props : Properties) (text : List Char) (plain : Bool)
  | sequenceStart (props : Properties)
  | sequenceEnd
  | mappingStart (props : Properties)
  | mappingEnd
  deriving DecidableEq

/-- The scalar that stands where a node is left out. -/
def Event.omitted : Event := .scalar .none [] true

/-- What the grammar expects next. -/
inductive Expectation
  /-- A node outside brackets. -/
  | blockNode
  /-- The node after `---`, which may be left out. -/
  | documentContent
  | blockSequenceEntry
  /-- An item of a sequence that is not indented below its key. -/
  | indentlessEntry
  | blockMappingKey
  | blockMappingValue
  /-- The first item in square brackets, without a comma before it. -/
  | flowSequenceFirst
  | flowSequenceEntry
  /-- The key, the value and the end of a single pair in square brackets. -/
  | flowPairKey
  | flowPairValue
  | flowPairEnd
  /-- The first key in curly brackets, without a comma before it. -/
  | flowMappingFirst
  | flowMappingKey
  | flowMappingValue
  /-- The value of a key that no `:` can follow. -/
  | flowMappingOmitted
  deriving DecidableEq

/-- The handles that tags may use, with their meanings. -/
abbrev TagHandles := List (List Char × List UInt8)

/-- The octets of an ASCII text. -/
def octetsOf (s : String) : List UInt8 := s.toList.map fun c => UInt8.ofNat c.toNat

/-- The handles that need no directive. -/
def TagHandles.standard : TagHandles :=
  [(['!'], octetsOf "!"), (['!', '!'], octetsOf "tag:yaml.org,2002:")]

/-- A tag with its handle replaced. -/
def resolveTag (handles : TagHandles) (handle : List Char) (suffix : List UInt8) :
    Except Fault (List UInt8) :=
  if handle.isEmpty then .ok suffix
  else
    match handles.lookup handle with
    | some expansion => .ok (expansion ++ suffix)
    | none => .error .undeclaredTagHandle

/-- The anchor and tag in front of a node, in either order, and the tokens after them. -/
def readProperties (handles : TagHandles) : List Token → Except Fault (Properties × List Token)
  | .anchor a :: .tag h s :: rest => do return (⟨a, some (← resolveTag handles h s)⟩, rest)
  | .tag h s :: .anchor a :: rest => do return (⟨a, some (← resolveTag handles h s)⟩, rest)
  | .anchor a :: rest => .ok (⟨a, none⟩, rest)
  | .tag h s :: rest => do return (⟨none, some (← resolveTag handles h s)⟩, rest)
  | rest => .ok (.none, rest)

/-- What a step needs to know beside the tokens: the tag handles, and the fault to report when the
tokens run out. -/
structure Grammar where
  handles : TagHandles
  atEnd : Fault

/-- One event, the tokens after it, and the expectations after it. -/
abbrev Step := Except Fault (Event × List Token × List Expectation)

/-- The first event of a node.  `block` admits block collections, `indentless` items of a sequence
at the column of their key. -/
def nodeStep (g : Grammar) (block indentless : Bool) (tokens : List Token)
    (stack : List Expectation) : Step := do
  if let .alias name :: rest := tokens then return (.alias name, rest, stack)
  let (props, tokens) ← readProperties g.handles tokens
  match tokens with
  | [] => throw g.atEnd
  | .blockEntry :: _ =>
      if indentless then return (.sequenceStart props, tokens, .indentlessEntry :: stack)
      else if props = .none then throw .unexpectedToken
      else return (.scalar props [] true, tokens, stack)
  | .scalar text plain :: rest => return (.scalar props text plain, rest, stack)
  | .flowSequenceStart :: rest => return (.sequenceStart props, rest, .flowSequenceFirst :: stack)
  | .flowMappingStart :: rest => return (.mappingStart props, rest, .flowMappingFirst :: stack)
  | .blockSequenceStart :: rest =>
      if block then return (.sequenceStart props, rest, .blockSequenceEntry :: stack)
      else if props = .none then throw .unexpectedToken
      else return (.scalar props [] true, tokens, stack)
  | .blockMappingStart :: rest =>
      if block then return (.mappingStart props, rest, .blockMappingKey :: stack)
      else if props = .none then throw .unexpectedToken
      else return (.scalar props [] true, tokens, stack)
  | _ =>
      if props = .none then throw .unexpectedToken
      else return (.scalar props [] true, tokens, stack)

/-- A node, or an omitted one when the next token satisfies `ends`. -/
def optionalNode (g : Grammar) (block indentless : Bool) (ends : Token → Bool)
    (tokens : List Token) (stack : List Expectation) : Step :=
  match tokens with
  | [] => .error g.atEnd
  | t :: _ =>
      if ends t then .ok (.omitted, tokens, stack) else nodeStep g block indentless tokens stack

/-- The tokens that end an item of a block sequence. -/
def endsBlockItem : Token → Bool
  | .blockEntry | .blockEnd => true
  | _ => false

/-- The tokens that end an item of a sequence at the column of its key. -/
def endsIndentlessItem : Token → Bool
  | .blockEntry | .key | .value | .blockEnd => true
  | _ => false

/-- The tokens that end a key or a value of a block mapping. -/
def endsBlockPart : Token → Bool
  | .key | .value | .blockEnd => true
  | _ => false

/-- The tokens that end a document without a node. -/
def endsDocument : Token → Bool
  | .versionDirective .. | .tagDirective .. | .documentStart | .documentEnd | .streamEnd => true
  | _ => false

/-- The tokens that end the value of a pair in square brackets. -/
def endsFlowItem : Token → Bool
  | .flowEntry | .flowSequenceEnd => true
  | _ => false

/-- The tokens that end a value in curly brackets. -/
def endsFlowValue : Token → Bool
  | .flowEntry | .flowMappingEnd => true
  | _ => false

/-- The tokens that end a key in curly brackets. -/
def endsFlowKey (t : Token) : Bool := t = .value || endsFlowValue t

/-- An item in square brackets, or the closing bracket. -/
def flowItem (g : Grammar) (tokens : List Token) (stack : List Expectation) : Step :=
  match tokens with
  | [] => .error g.atEnd
  | .flowSequenceEnd :: rest => .ok (.sequenceEnd, rest, stack)
  | .key :: rest => .ok (.mappingStart .none, rest, .flowPairKey :: .flowSequenceEntry :: stack)
  | _ => nodeStep g false false tokens (.flowSequenceEntry :: stack)

/-- A key in curly brackets, or the closing bracket. -/
def flowKey (g : Grammar) (tokens : List Token) (stack : List Expectation) : Step :=
  match tokens with
  | [] => .error g.atEnd
  | .flowMappingEnd :: rest => .ok (.mappingEnd, rest, stack)
  | .key :: rest => optionalNode g false false endsFlowKey rest (.flowMappingValue :: stack)
  | _ => nodeStep g false false tokens (.flowMappingOmitted :: stack)

/-- The event that an expectation leads to. -/
def Event.step (g : Grammar) (tokens : List Token) (stack : List Expectation) :
    Expectation → Step
  | .blockNode => nodeStep g true false tokens stack
  | .documentContent => optionalNode g true false endsDocument tokens stack
  | .blockSequenceEntry =>
      match tokens with
      | [] => .error g.atEnd
      | .blockEntry :: rest =>
          optionalNode g true false endsBlockItem rest (.blockSequenceEntry :: stack)
      | .blockEnd :: rest => .ok (.sequenceEnd, rest, stack)
      | _ => .error .unexpectedToken
  | .indentlessEntry =>
      match tokens with
      | [] => .error g.atEnd
      | .blockEntry :: rest =>
          optionalNode g true false endsIndentlessItem rest (.indentlessEntry :: stack)
      | _ => .ok (.sequenceEnd, tokens, stack)
  | .blockMappingKey =>
      match tokens with
      | [] => .error g.atEnd
      | .key :: rest => optionalNode g true true endsBlockPart rest (.blockMappingValue :: stack)
      | .blockEnd :: rest => .ok (.mappingEnd, rest, stack)
      | _ => .error .unexpectedToken
  | .blockMappingValue =>
      match tokens with
      | [] => .error g.atEnd
      | .value :: rest => optionalNode g true true endsBlockPart rest (.blockMappingKey :: stack)
      | _ => .ok (.omitted, tokens, .blockMappingKey :: stack)
  | .flowSequenceFirst => flowItem g tokens stack
  | .flowSequenceEntry =>
      match tokens with
      | [] => .error g.atEnd
      | .flowSequenceEnd :: rest => .ok (.sequenceEnd, rest, stack)
      | .flowEntry :: rest => flowItem g rest stack
      | _ => .error .unexpectedToken
  | .flowPairKey =>
      match tokens with
      | [] => .error g.atEnd
      | t :: rest =>
          if t = .value || endsFlowItem t then .ok (.omitted, rest, .flowPairValue :: stack)
          else nodeStep g false false tokens (.flowPairValue :: stack)
  | .flowPairValue =>
      match tokens with
      | [] => .error g.atEnd
      | .value :: rest => optionalNode g false false endsFlowItem rest (.flowPairEnd :: stack)
      | _ => .ok (.omitted, tokens, .flowPairEnd :: stack)
  | .flowPairEnd => .ok (.mappingEnd, tokens, stack)
  | .flowMappingFirst => flowKey g tokens stack
  | .flowMappingKey =>
      match tokens with
      | [] => .error g.atEnd
      | .flowMappingEnd :: rest => .ok (.mappingEnd, rest, stack)
      | .flowEntry :: rest => flowKey g rest stack
      | _ => .error .unexpectedToken
  | .flowMappingValue =>
      match tokens with
      | [] => .error g.atEnd
      | .value :: rest =>
          optionalNode g false false endsFlowValue rest (.flowMappingKey :: stack)
      | _ => .ok (.omitted, tokens, .flowMappingKey :: stack)
  | .flowMappingOmitted =>
      if tokens.isEmpty then .error g.atEnd else .ok (.omitted, tokens, .flowMappingKey :: stack)

/-- The events of a stack of expectations, backwards, with the tokens left over or a fault. -/
def Event.run (g : Grammar) :
    Nat → List Event → List Token → List Expectation → List Event × Except Fault (List Token)
  | 0, back, _, _ => (back, .error g.atEnd)
  | _ + 1, back, tokens, [] => (back, .ok tokens)
  | fuel + 1, back, tokens, e :: stack =>
      match Event.step g tokens stack e with
      | .error fault => (back, .error fault)
      | .ok (event, tokens, stack) => Event.run g fuel (event :: back) tokens stack

/-- The events of the first document, and the fault found in it or after it. -/
structure Stream where
  events : List Event
  fault : Option Fault

/-- Reads the directives in front of a document.  The flag tells whether a `%YAML` line came. -/
def readDirectives : Bool → TagHandles → List Token → Except Fault (TagHandles × List Token)
  | seen, handles, .versionDirective major minor :: rest =>
      if seen || major != 1 || !(minor == 1 || minor == 2) then .error .refusedDirective
      else readDirectives true handles rest
  | seen, handles, .tagDirective handle expansion :: rest =>
      if (handles.lookup handle).isSome then .error .refusedDirective
      else readDirectives seen (handles ++ [(handle, expansion)]) rest
  | _, handles, rest => .ok (handles ++ .standard, rest)

/-- What has to follow the first document: nothing. -/
def faultAfter (atEnd : Fault) : List Token → Option Fault
  | .documentEnd :: rest => faultAfter atEnd rest
  | .streamEnd :: _ => none
  | [] => some atEnd
  | _ => some .severalDocuments

/-- The events of a document that begins with an expectation. -/
def Stream.ofDocument (g : Grammar) (tokens : List Token) (first : Expectation) : Stream :=
  match Event.run g (4 * tokens.length + 8) [] tokens [first] with
  | (back, .error fault) => ⟨back.reverse, some fault⟩
  | (back, .ok tokens) => ⟨back.reverse, faultAfter g.atEnd tokens⟩

/-- The events of the first document of a text with these tokens, of which `fault` cut off the
rest. -/
def Stream.ofTokens (tokens : List Token) (fault : Option Fault) : Stream :=
  let atEnd := fault.getD .unexpectedToken
  match tokens with
  | [] => ⟨[], fault⟩
  | .streamEnd :: _ => ⟨[], none⟩
  | .versionDirective .. :: _ | .tagDirective .. :: _ | .documentStart :: _ =>
      match readDirectives false [] tokens with
      | .error f => ⟨[], some f⟩
      | .ok (_, []) => ⟨[], some atEnd⟩
      | .ok (handles, .documentStart :: rest) =>
          .ofDocument ⟨handles, atEnd⟩ rest .documentContent
      | .ok _ => ⟨[], some .unexpectedToken⟩
  | _ => .ofDocument ⟨.standard, atEnd⟩ tokens .blockNode

end EscapeRoom.Yaml
