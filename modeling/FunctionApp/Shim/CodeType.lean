import FunctionApp.Text.Split
import FunctionApp.TypeExpr.Printer
import FunctionApp.TypeExpr.Size

/-!
# The types of the generated code

`codeType` writes the type that a value of a type expression has in the generated code. A type that
the code cannot name is a `Value`: a union other than `T?`, and an intersection without an effective
form.
-/

namespace FunctionApp.TypeExpr

/-- The part of a qualified name after its last colon. -/
def localName (name : String) : String :=
  (Text.splitOnChar ':' name).getLastD name

/-- The type of the generated code for a type expression nested at most `fuel` deep. -/
def codeTypeWithin : Nat → TypeExpr → String
  | 0, _ => "Value"
  | fuel + 1, ty =>
    match ty with
    | .builtin .string => "String"
    | .builtin .int => "i64"
    | .builtin .float => "f64"
    | .builtin .decimal => "Decimal"
    | .builtin .boolean => "bool"
    | .builtin .byte => "u8"
    | .builtin .xml => "Xml"
    | .builtin .error => "ShimError"
    | .builtin .json | .builtin .anydata | .builtin .any | .builtin .readonly => "Value"
    | .nil => "()"
    | .array item | .table item => "Vec<" ++ codeTypeWithin fuel item ++ ">"
    | .map value => "Map<String, " ++ codeTypeWithin fuel value ++ ">"
    | .tuple members =>
      "(" ++ String.intercalate ", " (members.map (codeTypeWithin fuel)) ++ ",)"
    | .union members =>
      match (TypeExpr.union members).withoutNil with
      | some inner =>
        if (TypeExpr.union members).isNilable && !inner.isUnion then
          "Option<" ++ codeTypeWithin fuel inner ++ ">"
        else "Value"
      | none => "Value"
    | .intersection members =>
      match effective (.intersection members) with
      | .ok reduced => codeTypeWithin fuel reduced
      | .error _ => "Value"
    | .named name => "crate::types::" ++ localName name

def codeType (ty : TypeExpr) : String := codeTypeWithin ty.size ty

end FunctionApp.TypeExpr
