/-!
# What can be wrong with a YAML text

The causes are told apart where they arise.  A reader of a verdict sees two of them only: a
mapping that repeats a key, and everything else.
-/

namespace EscapeRoom.Yaml

/-- The reason why a text is not one YAML document. -/
inductive Fault
  /-- A control character or another character that YAML does not allow. -/
  | forbiddenCharacter
  /-- A character that cannot start a token where it stands. -/
  | strayCharacter
  /-- A `:` , `?` or `-` where no key, value or entry may begin. -/
  | misplacedIndicator
  /-- A key that no `:` follows, although its position demands one. -/
  | unfinishedKey
  /-- A malformed `%` line. -/
  | malformedDirective
  /-- A `%YAML` line of another version, or two `%YAML` lines, or two `%TAG` lines of one handle. -/
  | refusedDirective
  /-- A `&` or `*` without a proper name. -/
  | malformedAnchor
  /-- A malformed tag. -/
  | malformedTag
  /-- A tag whose handle no directive declares. -/
  | undeclaredTagHandle
  /-- A quoted scalar without its closing quote. -/
  | unclosedQuote
  /-- An unknown escape, or one without its digits, or one that names no character. -/
  | malformedEscape
  /-- A malformed header of a block scalar. -/
  | malformedBlockHeader
  /-- A tab where spaces have to stand. -/
  | tabIndentation
  /-- A plain scalar in brackets with `:` in front of an indicator. -/
  | ambiguousColon
  /-- A token that the grammar does not admit where it stands. -/
  | unexpectedToken
  /-- An alias of an anchor that was not set. -/
  | unknownAnchor
  /-- Collections nested too deeply. -/
  | tooDeep
  /-- Aliases that expand beyond every proportion to the text. -/
  | tooManyAliases
  /-- A scalar that does not fit the type its tag demands. -/
  | unfitScalar
  /-- An integer beyond 64 bits. -/
  | integerOutOfRange
  /-- A second document, or anything else after the first one. -/
  | severalDocuments
  /-- A mapping that holds one key twice. -/
  | duplicateKey
  deriving DecidableEq, Repr

/-- The detail that a verdict reports.  A constant stands for the message that the player reads, in
which the cause is put into words with its line and column.  Of the causes it tells apart only
whether a key is repeated; no rule and no outcome depends on more. -/
def Fault.summary : Fault → String
  | .duplicateKey => "<yaml: duplicate>"
  | _ => "<yaml: invalid>"

end EscapeRoom.Yaml
