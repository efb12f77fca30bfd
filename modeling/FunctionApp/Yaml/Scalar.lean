import FunctionApp.Yaml.Fault
import FunctionApp.Yaml.Tag
import FunctionApp.Yaml.Value

/-!
# What a plain scalar stands for

The core schema: the words for null and the booleans, integers in four bases, and decimal numbers.
An integer has 64 bits; one that has more but fits into 128 bits is refused, and one that does not
fit is a decimal number like any other. Digits after a leading zero are text.
-/

namespace FunctionApp.Yaml.Scalar

def isNull (text : String) : Bool := ["null", "Null", "NULL", "~"].contains text

def bool? (text : String) : Option Bool :=
  if ["true", "True", "TRUE"].contains text then some true
  else if ["false", "False", "FALSE"].contains text then some false
  else none

/-! ## Integers -/

/-- The value of a digit in a base up to sixteen. -/
def digit? (base : Nat) (c : Char) : Option Nat :=
  let value? :=
    if '0' ≤ c ∧ c ≤ '9' then some (c.toNat - 48)
    else if 'a' ≤ c ∧ c ≤ 'f' then some (c.toNat - 87)
    else if 'A' ≤ c ∧ c ≤ 'F' then some (c.toNat - 55)
    else none
  value?.filter (· < base)

/-- The number that digits stand for, of which there is at least one. -/
def digits? (base : Nat) (cs : List Char) : Option Nat :=
  if cs.isEmpty then none
  else cs.foldlM (fun n c => (digit? base c).map (base * n + ·)) 0

/-- Whether a text, after its sign, starts with a zero and has only further digits after it. -/
def hasLeadingZero (cs : List Char) : Bool :=
  let unsigned := match cs with
    | '-' :: rest => rest
    | '+' :: rest => rest
    | cs => cs
  match unsigned with
  | '0' :: rest => !rest.isEmpty && rest.all fun c => '0' ≤ c && c ≤ '9'
  | _ => false

/-- The number of digits without a sign, in the base that they announce. -/
def magnitude? : List Char → Option Nat
  | '0' :: 'x' :: rest => digits? 16 rest
  | '0' :: 'o' :: rest => digits? 8 rest
  | '0' :: 'b' :: rest => digits? 2 rest
  | cs => if hasLeadingZero cs then none else digits? 10 cs

/-- The number of a scalar without a sign or with a plus sign. -/
def natural? (cs : List Char) : Option Nat :=
  match cs with
  | '+' :: rest => magnitude? rest
  | cs => magnitude? cs

/-- The magnitude of a scalar with a minus sign. -/
def negative? : List Char → Option Nat
  | '-' :: rest => magnitude? rest
  | _ => none

/-- The integer of a scalar, if it is one. -/
def int? (cs : List Char) : Option (Except Fault Value) :=
  match natural? cs, negative? cs with
  | some n, _ =>
    if n < Nat.pow 2 64 then some (.ok (.int n false))
    else if n < Nat.pow 2 128 then some (.error (.expected "a smaller integer"))
    else none
  | none, some n =>
    if n ≤ Nat.pow 2 63 then some (.ok (.int (-n) true))
    else if n ≤ Nat.pow 2 127 then some (.error (.expected "a smaller integer"))
    else none
  | none, none => none

/-! ## Decimal numbers -/

/-- The exponent at the end of a decimal number: zero if there is none. -/
def exponent? : List Char → Option Int
  | [] => some 0
  | c :: rest =>
    if c = 'e' ∨ c = 'E' then
      match rest with
      | '-' :: rest => (digits? 10 rest).map fun n => -(n : Int)
      | '+' :: rest => (digits? 10 rest).map fun n => (n : Int)
      | rest => (digits? 10 rest).map fun n => (n : Int)
    else none

/-- A decimal number without a sign: digits with at most one point among them, and an exponent. -/
def decimal? (negative : Bool) (cs : List Char) : Option Double := do
  let isDigit := fun c : Char => '0' ≤ c && c ≤ '9'
  let whole := cs.takeWhile isDigit
  let rest := cs.dropWhile isDigit
  let (fraction, rest) := match rest with
    | '.' :: rest => (rest.takeWhile isDigit, rest.dropWhile isDigit)
    | rest => ([], rest)
  let digits ← digits? 10 (whole ++ fraction)
  let exponent ← exponent? rest
  let d := Double.ofDecimal negative digits (exponent - fraction.length)
  if d.isFinite then some d else none

/-- The double of a scalar, if it is one. A decimal number too large for a double is none. -/
def double? (text : String) : Option Double :=
  let words := fun sign : String => [".inf", ".Inf", ".INF"].map (sign ++ ·)
  if (words "").contains text || (words "+").contains text then some (.infinity false)
  else if (words "-").contains text then some (.infinity true)
  else if [".nan", ".NaN", ".NAN"].contains text then some .notANumber
  else
    match text.toList with
    | '+' :: rest => decimal? false rest
    | '-' :: rest => decimal? true rest
    | cs => decimal? false cs

/-! ## Scalars -/

/-- What a plain scalar without a tag stands for. -/
def resolve (text : String) : Except Fault Value :=
  if text = "" || isNull text then .ok .null
  else
    match bool? text with
    | some value => .ok (.bool value)
    | none =>
      match int? text.toList with
      | some result => result
      | none =>
        if hasLeadingZero text.toList then .ok (.text text)
        else
          match double? text with
          | some value => .ok (.double value)
          | none => .ok (.text text)

/-- What a scalar stands for under a tag of the core schema; any other tag makes it a text. -/
def resolveAs (tag : Tag) (text : String) : Except Fault Value :=
  if tag = .core "bool" then
    match bool? text with
    | some value => .ok (.bool value)
    | none => .error (.expected "a boolean")
  else if tag = .core "int" then
    match int? text.toList with
    | some result => result
    | none => .error (.expected "an integer")
  else if tag = .core "float" then
    match double? text with
    | some value => .ok (.double value)
    | none => .error (.expected "a float")
  else if tag = .core "null" then
    if isNull text then .ok .null else .error (.expected "null")
  else .ok (.text text)

end FunctionApp.Yaml.Scalar
