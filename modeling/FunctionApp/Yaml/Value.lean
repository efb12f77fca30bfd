import FunctionApp.Decimal.Shortest

/-!
# Values of YAML

What a node stands for once its scalars are resolved. `alike` is the equality by which the keys of a
mapping must differ: the order of a mapping does not count, and a value that is not a number is like
itself.
-/

namespace FunctionApp.Yaml

/-- What a node stands for. -/
inductive Value where
  | null
  | bool (value : Bool)
  /-- An integer. `minus` says that it is written with a minus sign, as zero may be, too. -/
  | int (value : Int) (minus : Bool)
  | double (value : Double)
  | text (value : String)
  | sequence (items : List Value)
  | mapping (entries : List (Value × Value))
  /-- A value under a tag of the application, which gives it a name. -/
  | tagged (name : String) (value : Value)
deriving Inhabited

namespace Value

/-- Whether two doubles are the same number, or both are none. -/
def alikeDoubles (a b : Double) : Bool :=
  (a.isNaN && b.isNaN) || (!a.isNaN && a == b) || (a.isZero && b.isZero)

mutual

/-- Whether two values are the same, whatever the order of their mappings. -/
def alike : Value → Value → Bool
  | .null, .null => true
  | .bool a, .bool b => a == b
  | .int a _, .int b _ => a == b
  | .double a, .double b => alikeDoubles a b
  | .text a, .text b => a == b
  | .sequence as, .sequence bs => alikeItems as bs
  | .mapping as, .mapping bs => as.length == bs.length && alikeEntries as bs
  | .tagged m a, .tagged n b => m == n && alike a b
  | _, _ => false

def alikeItems : List Value → List Value → Bool
  | [], [] => true
  | a :: as, b :: bs => alike a b && alikeItems as bs
  | _, _ => false

/-- Whether each entry of the first list is in the second one. -/
def alikeEntries : List (Value × Value) → List (Value × Value) → Bool
  | [], _ => true
  | (k, v) :: rest, bs => bs.any (fun (l, w) => alike k l && alike v w) && alikeEntries rest bs

end

/-- YAML numbers have an exponent without a plus sign. -/
def exponentStyle : Decimal.ExponentStyle := .unsigned

def doubleText (d : Double) : String :=
  if d.isNaN then ".nan"
  else if d.isFinite then d.text exponentStyle
  else if d.isNegative then "-.inf"
  else ".inf"

/-- The text of a text, a number or a boolean. -/
def literal? : Value → Option String
  | .text value => some value
  | .int value _ => some (toString value)
  | .double value => some (doubleText value)
  | .bool value => some (if value then "true" else "false")
  | _ => none

def text? : Value → Option String
  | .text value => some value
  | _ => none

end Value

end FunctionApp.Yaml
