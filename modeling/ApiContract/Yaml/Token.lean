/-!
# Tokens

The marks and scalars that a YAML text is made of.  Indentation has become
tokens too: a block opens with `blockSequenceStart` or `blockMappingStart`
and closes with `blockEnd`.
-/

namespace ApiContract.Yaml

/-- How a scalar is written. -/
inductive ScalarStyle where
  | plain
  | singleQuoted
  | doubleQuoted
  | literal
  | folded
deriving DecidableEq, Repr

/-- A mark or a scalar. -/
inductive Token where
  | version (major minor : Nat)
  /-- A directive that lets a tag handle stand for the start of tags. -/
  | handle (name expansion : String)
  | documentStart
  | documentEnd
  | blockSequenceStart
  | blockMappingStart
  | blockEnd
  | flowSequenceStart
  | flowSequenceEnd
  | flowMappingStart
  | flowMappingEnd
  | blockEntry
  | flowEntry
  | key
  | value
  | alias (name : String)
  | anchor (name : String)
  /-- A tag as a handle and the rest, the handle being empty in a tag that
  is written out. -/
  | tag (handle rest : String)
  | scalar (style : ScalarStyle) (text : String)
deriving DecidableEq, Repr

end ApiContract.Yaml
