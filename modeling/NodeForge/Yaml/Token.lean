import NodeForge.Text.Sign

/-!
# The tokens of a YAML text

What a YAML text consists of once its layout has been read: indentation has become the start and
the end of blocks, and every key is announced, whether it stood behind a question mark or only
before a colon.
-/

namespace NodeForge.Yaml

/-- A token of a YAML text. -/
inductive Token where
  | version (major minor : Nat)
  /-- A handle for tags, and what it stands for. -/
  | handle (name start : String)
  | otherDirective
  | documentStart
  | documentEnd
  | streamEnd
  | blockSequence
  | blockMapping
  | blockEnd
  | flowSequence
  | flowSequenceEnd
  | flowMapping
  | flowMappingEnd
  | blockEntry
  | flowEntry
  | key
  | value
  | alias (name : String)
  | anchor (name : String)
  | tag (handle : Option String) (suffix : String)
  | scalar (text : Text) (isPlain : Bool)
deriving Repr, DecidableEq

end NodeForge.Yaml
