import FunctionApp.TypeExpr.Basic

/-!
# Content types

The encodings of a request body or a result. `ofType` is the encoding that a payload of a type has
when the request does not declare one.
-/

namespace FunctionApp

inductive ContentType where
  | json
  | xml
  | text
  | binary
  | form
deriving DecidableEq, Repr

namespace ContentType

/-- The MIME type of an encoding. -/
def mime : ContentType → String
  | .json => "application/json"
  | .xml => "application/xml"
  | .text => "text/plain"
  | .binary => "application/octet-stream"
  | .form => "application/x-www-form-urlencoded"

def all : List ContentType := [.json, .xml, .text, .binary, .form]

def ofMime? (mime : String) : Option ContentType := all.find? fun c => c.mime == mime

/-- The encoding of a payload of a type, whether or not it may be absent. -/
def ofType (ty : TypeExpr) : ContentType :=
  match ty.withoutNil.getD .nil with
  | .builtin .string => .text
  | .builtin .xml => .xml
  | .array (.builtin .byte) => .binary
  | .map (.builtin .string) => .form
  | _ => .json

end ContentType

end FunctionApp
