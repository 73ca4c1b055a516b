import LiveScore.Yaml.Scalar

/-!
# YAML tokens

The words of a YAML stream. Some of them are written, such as brackets and scalars; others stand for
indentation: a block collection starts where a line is indented further than before, and ends where
one is indented less.
-/

namespace LiveScore.Yaml

/-- A tag as written: the part up to the last exclamation mark, and what follows it. -/
structure TagName where
  handle : String
  suffix : String
deriving DecidableEq

/-- The kinds of tokens. -/
inductive TokenKind where
  | streamEnd
  | versionDirective (major minor : Nat)
  | tagDirective (handle uri : String)
  | documentStart
  | documentEnd
  | blockSequenceStart
  | blockMappingStart
  | blockEnd
  | flowSequenceStart
  | flowSequenceEnd
  | flowMappingStart
  | flowMappingEnd
  | blockEntry
  | flowEntry
  | key
  | value
  | aliasOf (name : String)
  | anchor (name : String)
  | tag (name : TagName)
  | scalar (text : String) (style : ScalarStyle)
deriving DecidableEq

/-- A token and its place. -/
structure Token where
  kind : TokenKind
  start : Mark
  stop : Mark
deriving DecidableEq

end LiveScore.Yaml
