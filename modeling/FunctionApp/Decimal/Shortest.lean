import FunctionApp.Decimal.Double

/-!
# The shortest decimal that reads back

Among the decimals that round to a given double, `shortest` takes one with the fewest digits, of
those the nearest to the double, and of two equally near the one with the even last digit. `text`
writes it: positional while the decimal point stands between four zeros after it and sixteen digits
before it, with an exponent otherwise.
-/

namespace FunctionApp

/-- The decimal `digits · 10 ^ exponent`. -/
structure Decimal where
  digits : Nat
  exponent : Int
deriving DecidableEq, Repr

namespace Decimal

/-- The same decimal without zeros at the end of its digits, of which at most `fuel` are dropped. -/
def stripZeros : Nat → Decimal → Decimal
  | 0, d => d
  | fuel + 1, d =>
    if d.digits % 10 = 0 then stripZeros fuel ⟨d.digits / 10, d.exponent + 1⟩ else d

/-- How many powers of ten, at most `fuel`, lie between `num / den` and one from below. -/
def leadingZeros : Nat → Nat → Nat → Nat
  | 0, _, _ => 0
  | fuel + 1, num, den => if den ≤ num then 0 else leadingZeros fuel (num * 10) den + 1

/-- The reals that round to a positive double, as quotients over one denominator: the least one, the
double itself and the greatest one. Both ends belong to it when `closed`. -/
structure Interval where
  low : Nat
  value : Nat
  high : Nat
  den : Nat
  closed : Bool

/-- The reals that round to a positive finite double. The gap below a power of two is half as wide
as the gap above it. -/
def Interval.of (d : Double) : Interval :=
  let m := d.mantissa
  let e := d.exponent - 2
  let scale := Nat.pow 2 e.toNat
  let below := if m = Nat.pow 2 52 ∧ d.exponent ≠ -1074 then 1 else 2
  { low := (4 * m - below) * scale
    value := 4 * m * scale
    high := (4 * m + 2) * scale
    den := Nat.pow 2 (-e).toNat
    closed := m % 2 == 0 }

/-- Whether `c · 10 ^ u` lies in the interval. -/
def Interval.holds (i : Interval) (c : Nat) (u : Int) : Bool :=
  let point := c * Nat.pow 10 u.toNat * i.den
  let unit := Nat.pow 10 (-u).toNat
  if i.closed then i.low * unit ≤ point && point ≤ i.high * unit
  else i.low * unit < point && point < i.high * unit

/-- The number of digits before the decimal point of the interval's value, negative when zeros
follow the point. -/
def Interval.point (i : Interval) : Int :=
  if i.den ≤ i.value then (Double.digitCount (i.value / i.den) : Int)
  else 1 - (leadingZeros 400 i.value i.den : Int)

/-- The best decimal of the grid with unit `10 ^ u` that lies in the interval. -/
def Interval.onGrid? (i : Interval) (u : Int) : Option Decimal :=
  let num := i.value * Nat.pow 10 (-u).toNat
  let den := i.den * Nat.pow 10 u.toNat
  let below := num / den
  let rest := num % den
  let lowHit := i.holds below u
  let highHit := i.holds (below + 1) u
  if lowHit && highHit then
    if 2 * rest < den then some ⟨below, u⟩
    else if den < 2 * rest then some ⟨below + 1, u⟩
    else some ⟨below + below % 2, u⟩
  else if lowHit then some ⟨below, u⟩
  else if highHit then some ⟨below + 1, u⟩
  else none

/-- The decimal with the fewest digits that reads back as the positive finite double `d`. Seventeen
digits always suffice. -/
def shortest (d : Double) : Decimal :=
  let i := Interval.of d
  let hit := (List.range 17).findSome? fun (n : Nat) => i.onGrid? (i.point - (n + 1 : Nat))
  stripZeros 20 (hit.getD ⟨0, 0⟩)

def zeros (n : Nat) : String := String.ofList (List.replicate n '0')

/-- How a format writes an exponent that is not negative. -/
inductive ExponentStyle where
  | unsigned
  | signed
deriving DecidableEq, Repr

/-- An exponent in a style, in as few digits as it needs. -/
def ExponentStyle.write (style : ExponentStyle) (exponent : Int) : String :=
  let sign := if exponent < 0 then "-" else if style = .signed then "+" else ""
  "e" ++ sign ++ Nat.repr exponent.natAbs

/-- A decimal as text, with at least one digit on each side of a decimal point. -/
def text (style : ExponentStyle) (d : Decimal) : String :=
  let digits := Nat.repr d.digits
  let count := digits.length
  let point : Int := count + d.exponent
  if 0 ≤ d.exponent ∧ point ≤ 16 then digits ++ zeros d.exponent.toNat ++ ".0"
  else if 0 < point ∧ point ≤ 16 then
    String.ofList (digits.toList.take point.toNat) ++ "." ++
      String.ofList (digits.toList.drop point.toNat)
  else if -5 < point ∧ point ≤ 0 then "0." ++ zeros (-point).toNat ++ digits
  else
    let fraction := if count = 1 then "" else "." ++ String.ofList (digits.toList.drop 1)
    String.ofList (digits.toList.take 1) ++ fraction ++ style.write (point - 1)

end Decimal

/-- A finite double as the shortest decimal text that reads back. -/
def Double.text (style : Decimal.ExponentStyle) (d : Double) : String :=
  let sign := if d.isNegative then "-" else ""
  if d.isZero then sign ++ "0.0" else sign ++ (Decimal.shortest d).text style

end FunctionApp
