import EscapeRoom.Manifest.Place
import EscapeRoom.Text.Lines
import EscapeRoom.Yaml.Document

/-!
# Manifests

A manifest is a text with a mapping at its top.  A text without content counts as an empty mapping;
anything else at the top is refused.

* `Manifest.ofDocument` — reading the text as one YAML document.
* `isBlankDocument` — texts that are known to be empty without reading them.
* `Manifest.ofText` — reading with that shortcut.
-/

namespace EscapeRoom

open Yaml

/-- A manifest: the entries of its top mapping. -/
structure Manifest where
  entries : Entries
  deriving DecidableEq

/-- What a tree is, as far as its top shows. -/
inductive TreeKind
  | null
  | boolean
  | number
  | string
  | sequence
  | mapping
  | tagged
  deriving DecidableEq, Repr

def TreeKind.of : Tree → TreeKind
  | .null => null
  | .bool _ => boolean
  | .number _ => number
  | .string _ => string
  | .sequence _ => sequence
  | .mapping _ => mapping
  | .tagged _ _ => tagged

/-- A kind with its article. -/
def TreeKind.phrase : TreeKind → String
  | null => "null"
  | boolean => "a boolean"
  | number => "a number"
  | string => "a string"
  | sequence => "a sequence"
  | mapping => "a mapping"
  | tagged => "a tagged value"

/-- Why a text is no manifest. -/
inductive ManifestError
  /-- It is not one YAML document. -/
  | malformed (fault : Fault)
  /-- Its top is something else than a mapping. -/
  | notMapping (found : TreeKind)
  deriving DecidableEq, Repr

/-- The text of an error. -/
def ManifestError.message : ManifestError → String
  | malformed fault => fault.summary
  | notMapping found => "top level must be a mapping, found " ++ found.phrase

namespace Manifest

/-- The manifest without entries. -/
def empty : Manifest := ⟨.nil⟩

/-- The top of a manifest. -/
def root (m : Manifest) : Place := .present (.mapping m.entries)

/-- The manifest that a tree is; null is the empty one. -/
def ofTree : Tree → Except ManifestError Manifest
  | .null => .ok empty
  | .mapping entries => .ok ⟨entries⟩
  | tree => .error (.notMapping (.of tree))

/-- The manifest that a text is when it is read as one YAML document. -/
def ofDocument (text : String) : Except ManifestError Manifest :=
  match Tree.ofText text.toList with
  | .ok tree => ofTree tree
  | .error fault => .error (.malformed fault)

/-- Whether a line is blank, a comment or a bare `---`. -/
def isBlankLine (line : List Char) : Bool :=
  let line := Text.trim line
  line.isEmpty || line.head? == some '#' || line == ['-', '-', '-']

/-- Whether every line of a text is blank, a comment or a bare `---`. -/
def isBlankDocument (text : String) : Bool := (Text.lines text.toList).all isBlankLine

/-- The manifest that a text is; a blank document is an empty one. -/
def ofText (text : String) : Except ManifestError Manifest :=
  if isBlankDocument text then .ok empty else ofDocument text

end Manifest

end EscapeRoom
