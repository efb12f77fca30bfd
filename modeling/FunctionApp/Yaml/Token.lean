import FunctionApp.Yaml.Tag

/-!
# Tokens of YAML

The indicators of a YAML text with its scalars, and the tokens that indentation stands for: where a
block collection starts and where it ends. An alias and a scalar keep the line on which they start,
counted from zero.
-/

namespace FunctionApp.Yaml

inductive Style where
  | plain
  | singleQuoted
  | doubleQuoted
  | literal
  | folded
deriving DecidableEq, Repr

inductive Token where
  | version (major minor : Nat)
  | tagDirective (handle : String) (expansion : Tag)
  | documentStart
  | documentEnd
  | blockSequenceStart
  | blockMappingStart
  | blockEnd
  | flowSequenceStart
  | flowSequenceEnd
  | flowMappingStart
  | flowMappingEnd
  | blockEntry
  | flowEntry
  | key
  | value
  | alias (name : String) (line : Nat)
  | anchor (name : String)
  | tag (handle : String) (suffix : Tag)
  | scalar (text : String) (style : Style) (line : Nat)
deriving DecidableEq, Repr

end FunctionApp.Yaml
