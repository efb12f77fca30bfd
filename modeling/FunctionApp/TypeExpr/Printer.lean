import FunctionApp.TypeExpr.Basic

/-!
# Type expressions as text

A union of two members of which one is `()` is written `T?`; any other union has a bar between its
members. Brackets stand around a union or an intersection before `[]` and `?`, and around a union
inside an intersection.
-/

namespace FunctionApp

/-- The word of a built-in type. -/
def Builtin.word : Builtin → String
  | .string => "string"
  | .int => "int"
  | .float => "float"
  | .decimal => "decimal"
  | .boolean => "boolean"
  | .byte => "byte"
  | .json => "json"
  | .anydata => "anydata"
  | .any => "any"
  | .xml => "xml"
  | .error => "error"
  | .readonly => "readonly"

def Builtin.all : List Builtin :=
  [.string, .int, .float, .decimal, .boolean, .byte, .json, .anydata, .any, .xml, .error, .readonly]

def Builtin.ofWord? (word : String) : Option Builtin :=
  Builtin.all.find? fun b => b.word == word

/-- Reading the word of a built-in type gives that type. -/
theorem Builtin.ofWord?_word (b : Builtin) : Builtin.ofWord? b.word = some b := by
  cases b <;> decide

namespace TypeExpr

/-- Whether a type needs brackets before `[]` and `?`. -/
def needsBrackets : TypeExpr → Bool
  | .union _ | .intersection _ => true
  | _ => false

def isUnion : TypeExpr → Bool
  | .union _ => true
  | _ => false

/-- The type before a `[]` or a `?`, given its text. -/
def bracketed (ty : TypeExpr) (text : String) : String :=
  if ty.needsBrackets then "(" ++ text ++ ")" else text

mutual

def print : TypeExpr → String
  | .builtin word => word.word
  | .nil => "()"
  | .array element => bracketed element (print element) ++ "[]"
  | .map value => "map<" ++ print value ++ ">"
  | .table row => "table<" ++ print row ++ ">"
  | .tuple members => "[" ++ String.intercalate ", " (printAll members) ++ "]"
  | .union [ty, .nil] =>
    if ty.isNil then "()|()" else bracketed ty (print ty) ++ "?"
  | .union [.nil, ty] => bracketed ty (print ty) ++ "?"
  | .union members => String.intercalate "|" (printAll members)
  | .intersection members => String.intercalate " & " (printOperands members)
  | .named name => name

def printAll : List TypeExpr → List String
  | [] => []
  | ty :: rest => print ty :: printAll rest

def printOperands : List TypeExpr → List String
  | [] => []
  | ty :: rest => (if ty.isUnion then "(" ++ print ty ++ ")" else print ty) :: printOperands rest

end

attribute [grind =] isUnion bracketed print printAll printOperands

end TypeExpr

end FunctionApp
