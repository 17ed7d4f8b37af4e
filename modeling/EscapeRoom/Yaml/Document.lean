import EscapeRoom.Yaml.Scalar
import EscapeRoom.Yaml.Token.Lexer

/-!
# The tree of a text

Aliases stand for the node that carries their anchor.  A document is read to its end before its
tree is built, so an anchor that is set again counts from the beginning: the names are numbered by
how many different ones came before, and a number always means the last node that got it.

* `Document.ofStream` — events with numbered aliases.
* `Document.tree` — the tree, with limits on nesting and on aliases.
* `Tree.ofText` — the one document of a text.
-/

namespace EscapeRoom.Yaml

/-- An event whose alias, if it is one, is a number. -/
inductive Node
  | alias (number : Nat)
  | scalar (tag : Option TagKind) (text : List Char) (plain : Bool)
  | sequenceStart (tag : Option TagKind)
  | sequenceEnd
  | mappingStart (tag : Option TagKind)
  | mappingEnd
  deriving DecidableEq

/-- A document read to its end or to a fault. -/
structure Document where
  nodes : List Node
  /-- The numbers of the anchored nodes with the nodes from there on, the last one first. -/
  anchored : List (Nat × List Node)
  fault : Option Fault

/-- The node that an event begins or ends, and its anchor. -/
def Event.node : Event → Option (List Char) × Node
  | .alias _ => (none, .alias 0)
  | .scalar props text plain => (props.anchor, .scalar (props.tag.map .ofOctets) text plain)
  | .sequenceStart props => (props.anchor, .sequenceStart (props.tag.map .ofOctets))
  | .sequenceEnd => (none, .sequenceEnd)
  | .mappingStart props => (props.anchor, .mappingStart (props.tag.map .ofOctets))
  | .mappingEnd => (none, .mappingEnd)

/-- Numbers the anchors of events.  `names` are the anchors so far with their numbers, each name
once.  The answer holds the nodes and the numbered places, in order, and whether an alias was
unknown. -/
def numberAnchors : List (List Char × Nat) → List Event → List Node × List (Nat × Nat) × Bool
  | _, [] => ([], [], false)
  | names, .alias name :: events =>
      match names.lookup name with
      | none => ([], [], true)
      | some number =>
          let (nodes, places, unknown) := numberAnchors names events
          (.alias number :: nodes, places.map (fun p => (p.1, p.2 + 1)), unknown)
  | names, event :: events =>
      let (anchor, node) := event.node
      match anchor with
      | none =>
          let (nodes, places, unknown) := numberAnchors names events
          (node :: nodes, places.map (fun p => (p.1, p.2 + 1)), unknown)
      | some name =>
          let number := names.length
          let names := (name, number) :: names.filter fun n => n.1 != name
          let (nodes, places, unknown) := numberAnchors names events
          (node :: nodes, (number, 0) :: places.map (fun p => (p.1, p.2 + 1)), unknown)

/-- A stream with its anchors numbered. -/
def Document.ofStream (s : Stream) : Document :=
  let (nodes, places, unknown) := numberAnchors [] s.events
  { nodes
    anchored := (places.map fun p => (p.1, nodes.drop p.2)).reverse
    fault := if unknown then some .unknownAnchor else s.fault }

/-- How deeply collections may be nested. -/
def maxDepth : Nat := 128

/-- How many aliases may be followed for each node of a document. -/
def aliasesPerNode : Nat := 100

/-- The name of a tag that makes a node `tagged`. -/
def ownTag? (bare : Bool) : Option TagKind → Option String
  | some (.named name) => if bare then none else some name
  | _ => none

/-- A tree under the name of its own tag. -/
def withTag (name : Option String) (t : Tree) : Tree := name.elim t fun n => .tagged n t

mutual

/-- The tree of the node at the front, the number of aliases followed so far, and the nodes behind
it.  A `bare` node has its tag disabled: such are the keys of a
tagged mapping. -/
def Document.build (d : Document) :
    Nat → Nat → Bool → Nat → List Node → Except Fault (Tree × Nat × List Node)
  | 0, _, _, _, _ => .error .tooDeep
  | fuel + 1, depth, bare, jumps, nodes =>
      match nodes with
      | [] => .error (d.fault.getD .unexpectedToken)
      | .alias number :: rest =>
          if aliasesPerNode * d.nodes.length < jumps + 1 then .error .tooManyAliases
          else
            match d.anchored.lookup number with
            | none => .error .unknownAnchor
            | some target => do
                let (t, jumps, _) ← d.build fuel depth false (jumps + 1) target
                return (t, jumps, rest)
      | .scalar tag text plain :: rest => do
          let t ← scalarTree bare tag text plain
          return (t, jumps, rest)
      | .sequenceStart tag :: rest =>
          match depth with
          | 0 => .error .tooDeep
          | depth + 1 => do
              let (items, jumps, rest) ← d.buildItems fuel depth jumps rest
              return (withTag (ownTag? bare tag) (.sequence items), jumps, rest)
      | .mappingStart tag :: rest =>
          match depth with
          | 0 => .error .tooDeep
          | depth + 1 => do
              let name := ownTag? bare tag
              let (entries, jumps, rest) ←
                d.buildEntries fuel depth (bare || name.isSome) jumps [] rest
              return (withTag name (.mapping entries), jumps, rest)
      | .sequenceEnd :: _ => .error .unexpectedToken
      | .mappingEnd :: _ => .error .unexpectedToken

/-- The items up to the end of a sequence. -/
def Document.buildItems (d : Document) :
    Nat → Nat → Nat → List Node → Except Fault (Items × Nat × List Node)
  | 0, _, _, _ => .error .tooDeep
  | fuel + 1, depth, jumps, nodes =>
      match nodes with
      | .sequenceEnd :: rest => .ok (.nil, jumps, rest)
      | nodes => do
          let (t, jumps, rest) ← d.build fuel depth false jumps nodes
          let (items, jumps, rest) ← d.buildItems fuel depth jumps rest
          return (.cons t items, jumps, rest)

/-- The entries up to the end of a mapping, none of which may repeat one of the `keys`. -/
def Document.buildEntries (d : Document) :
    Nat → Nat → Bool → Nat → List Tree → List Node → Except Fault (Entries × Nat × List Node)
  | 0, _, _, _, _, _ => .error .tooDeep
  | fuel + 1, depth, bare, jumps, keys, nodes =>
      match nodes with
      | .mappingEnd :: rest => .ok (.nil, jumps, rest)
      | nodes => do
          let (key, jumps, rest) ← d.build fuel depth bare jumps nodes
          if keys.any key.same then throw .duplicateKey
          let (value, jumps, rest) ← d.build fuel depth false jumps rest
          let (entries, jumps, rest) ← d.buildEntries fuel depth bare jumps (key :: keys) rest
          return (.cons key value entries, jumps, rest)

end

/-- The tree of a document; a text without a node is null.  A fault behind the last node counts
after those that the tree itself shows. -/
def Document.tree (d : Document) : Except Fault Tree := do
  if d.nodes.isEmpty && d.fault.isNone then return .null
  let fuel := (maxDepth + 1) * (2 * d.nodes.length + 4)
  let (t, _, _) ← d.build fuel maxDepth false 0 d.nodes
  match d.fault with
  | none => return t
  | some fault => throw fault

/-- The tree of a text that holds one document. -/
def Tree.ofText (text : List Char) : Except Fault Tree :=
  let (tokens, fault) := Token.ofSource (.ofText text)
  (Document.ofStream (.ofTokens tokens fault)).tree

end EscapeRoom.Yaml
