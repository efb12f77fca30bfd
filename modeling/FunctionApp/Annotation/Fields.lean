import FunctionApp.Annotation.Kind
import FunctionApp.Diagnostic.Problem
import FunctionApp.Text.Blank

/-!
# The fields of an annotation

Reading the fields of an annotation that may be left out altogether. The value of a field is its
text, with commas between the texts of a list; a number or a boolean may have blanks around it.
-/

namespace FunctionApp

/-- The integer of a text with an optional sign, if it has 64 bits. -/
def int64? (text : String) : Option Int :=
  let digits? := fun cs : List Char =>
    if !cs.isEmpty && cs.all Char.isDigit then
      some (cs.foldl (fun n c => 10 * n + (c.toNat - '0'.toNat)) 0)
    else none
  match text.toList with
  | '-' :: rest => (digits? rest).bind fun n => if n ≤ Nat.pow 2 63 then some (-(n : Int)) else none
  | '+' :: rest => (digits? rest).bind fun n => if n < Nat.pow 2 63 then some (n : Int) else none
  | cs => (digits? cs).bind fun n => if n < Nat.pow 2 63 then some (n : Int) else none

/-- The fields of an annotation of a kind, which may be absent. -/
structure AnnotationFields where
  written : Option Annotation
  kind : AnnotationKind

namespace AnnotationFields

/-- The name by which problems refer to the annotation. -/
def name (f : AnnotationFields) : String :=
  (f.written.map (·.name)).getD f.kind.qualifiedName

def text? (f : AnnotationFields) (key : String) : Option String :=
  (f.written.bind (·.field? key)).map AnnotationValue.joined

/-- The text of a field that must be there. -/
def required (f : AnnotationFields) (key : String) : Except Problem String :=
  match f.text? key with
  | some text => .ok text
  | none => .error (.missingField f.name key)

/-- A field read by `read?`, whose texts are described by `expected`. -/
def parsed {α : Type} (f : AnnotationFields) (key expected : String) (read? : String → Option α) :
    Except Problem (Option α) :=
  match f.text? key with
  | none => .ok none
  | some text =>
    match read? text with
    | some value => .ok (some value)
    | none => .error (.invalidValue f.name key text expected)

def int (f : AnnotationFields) (key : String) : Except Problem (Option Int) :=
  f.parsed key "an integer" fun text => int64? (Text.trim text)

def boolean (f : AnnotationFields) (key : String) : Except Problem (Option Bool) :=
  f.parsed key "a boolean" fun text =>
    match Text.trim text with
    | "true" => some true
    | "false" => some false
    | _ => none

/-- A field with one of the given texts, of which `default` stands for an absent one. -/
def oneOf (f : AnnotationFields) (key : String) (allowed : List String) (default : String) :
    Except Problem String := do
  let value ← f.parsed key ("one of " ++ String.intercalate ", " allowed) fun text =>
    if allowed.contains text then some text else none
  return value.getD default

end AnnotationFields

end FunctionApp
