/-!
# Why a YAML text is refused

A text is refused for its form, for the way its nodes refer to each other, or because a node does
not have the shape that its reader asks for.
-/

namespace FunctionApp.Yaml

inductive Fault where
  /-- A control character that YAML does not allow anywhere. -/
  | forbiddenCharacter
  /-- A key that spans lines or has no colon after it. -/
  | missingColon
  /-- A list entry, key or value indicator where none may stand. -/
  | misplacedIndicator (c : Char)
  /-- A character that starts no token. -/
  | strayCharacter (c : Char)
  | badDirective
  | badAnchor
  | badTag
  | badEscape
  | badBlockHeader
  | tabIndentation
  | unterminatedQuote
  /-- A colon inside a plain scalar of a flow collection, directly before a flow indicator. -/
  | strayColon
  /-- A token other than the ones that can continue a node. -/
  | unexpectedToken
  | unknownTagHandle (handle : String)
  | unknownAnchor (name : String)
  | noDocument
  | severalDocuments
  /-- Collections nested deeper than readers follow. -/
  | tooDeep
  /-- References that expand to far more than was written. -/
  | tooManyAliases
  | repeatedKey
  | missingField (name : String)
  | repeatedField (name : String)
  /-- A node of another kind than the reader asks for. -/
  | expected (kind : String)
deriving DecidableEq, Repr

def Fault.message : Fault → String
  | .forbiddenCharacter => "control characters are not allowed"
  | .missingColon => "could not find expected ':'"
  | .misplacedIndicator c => "'" ++ c.toString ++ "' is not allowed in this context"
  | .strayCharacter c => "found character '" ++ c.toString ++ "' that cannot start any token"
  | .badDirective => "malformed directive"
  | .badAnchor => "malformed anchor or alias"
  | .badTag => "malformed tag"
  | .badEscape => "unknown or malformed escape sequence"
  | .badBlockHeader => "malformed block scalar header"
  | .tabIndentation => "found a tab character where an indentation space is expected"
  | .unterminatedQuote => "unterminated quoted scalar"
  | .strayColon => "found unexpected ':'"
  | .unexpectedToken => "unexpected token"
  | .unknownTagHandle handle => "undefined tag handle '" ++ handle ++ "'"
  | .unknownAnchor name => "unknown anchor '" ++ name ++ "'"
  | .noDocument => "no document"
  | .severalDocuments => "more than one document"
  | .tooDeep => "recursion limit exceeded"
  | .tooManyAliases => "repetition limit exceeded"
  | .repeatedKey => "duplicate entry"
  | .missingField name => "missing field '" ++ name ++ "'"
  | .repeatedField name => "duplicate field '" ++ name ++ "'"
  | .expected kind => "expected " ++ kind

end FunctionApp.Yaml
