/-!
# Double precision numbers

A double is its 64 bits. What a finite double stands for is `mantissa · 2 ^ exponent` with its sign,
and every double that is computed here is the exact result rounded once, to the nearest double and
on a tie to the one with the even mantissa (`ofRatio`).
-/

namespace FunctionApp

/-- A double precision number in the IEEE 754 binary64 format. -/
structure Double where
  bits : UInt64
deriving DecidableEq, Repr

/-- A quotient rounded to the nearest natural number, on a tie to the even one. -/
def roundDiv (num den : Nat) : Nat :=
  let quotient := num / den
  let remainder := num % den
  if 2 * remainder < den then quotient
  else if den < 2 * remainder then quotient + 1
  else quotient + quotient % 2

namespace Double

def infinityBits : Nat := 0x7FF * Nat.pow 2 52

/-- The double with a sign and the bits of a magnitude. -/
def ofMagnitude (negative : Bool) (magnitude : Nat) : Double :=
  ⟨UInt64.ofNat (magnitude + if negative then Nat.pow 2 63 else 0)⟩

def infinity (negative : Bool) : Double := ofMagnitude negative infinityBits

def notANumber : Double := ofMagnitude false (infinityBits + Nat.pow 2 51)

def isNegative (d : Double) : Bool := Nat.pow 2 63 ≤ d.bits.toNat

/-- The bits without the sign bit. -/
def magnitude (d : Double) : Nat := d.bits.toNat % Nat.pow 2 63

def isFinite (d : Double) : Bool := d.magnitude < infinityBits

def isNaN (d : Double) : Bool := infinityBits < d.magnitude

def isZero (d : Double) : Bool := d.magnitude == 0

/-- The integral part of `mantissa · 2 ^ exponent`. -/
def mantissa (d : Double) : Nat :=
  if d.magnitude < Nat.pow 2 52 then d.magnitude else d.magnitude % Nat.pow 2 52 + Nat.pow 2 52

/-- The binary exponent of `mantissa · 2 ^ exponent`. -/
def exponent (d : Double) : Int :=
  if d.magnitude < Nat.pow 2 52 then -1074 else (d.magnitude / Nat.pow 2 52 : Nat) - 1075

/-- The binary exponent that leaves a quotient 53 significant bits, or the least one there is. -/
def exponentOf (num den : Nat) : Int :=
  let guess : Int := (num.log2 : Int) - (den.log2 : Int) - 52
  let tooSmall :=
    if 0 ≤ guess then num < den * Nat.pow 2 (guess.toNat + 52)
    else num * Nat.pow 2 (-guess).toNat < den * Nat.pow 2 52
  max (if tooSmall then guess - 1 else guess) (-1074)

/-- A quotient as the nearest double; too large a quotient is infinity. -/
def ofRatio (negative : Bool) (num den : Nat) : Double :=
  if num = 0 then ofMagnitude negative 0
  else
    let e := exponentOf num den
    let m :=
      if 0 ≤ e then roundDiv num (den * Nat.pow 2 e.toNat)
      else roundDiv (num * Nat.pow 2 (-e).toNat) den
    ofMagnitude negative (min (m + (e + 1074).toNat * Nat.pow 2 52) infinityBits)

def ofNat (n : Nat) : Double := ofRatio false n 1

def digitCount (n : Nat) : Nat := (Nat.toDigits 10 n).length

/-- `digits · 10 ^ exponent` as the nearest double. Beyond 10 ^ 310 that is infinity and below
10 ^ -330 it is zero, whatever the digits are. -/
def ofDecimal (negative : Bool) (digits : Nat) (exponent : Int) : Double :=
  if digits = 0 then ofMagnitude negative 0
  else if 310 < digitCount digits + exponent then infinity negative
  else if digitCount digits + exponent < -330 then ofMagnitude negative 0
  else if 0 ≤ exponent then ofRatio negative (digits * Nat.pow 10 exponent.toNat) 1
  else ofRatio negative digits (Nat.pow 10 (-exponent).toNat)

/-- The numerator of the magnitude of a finite double. -/
def numerator (d : Double) : Nat := d.mantissa * Nat.pow 2 d.exponent.toNat

/-- The denominator of the magnitude of a finite double. -/
def denominator (d : Double) : Nat := Nat.pow 2 (-d.exponent).toNat

/-- The product of two finite doubles. -/
def mul (a b : Double) : Double :=
  ofRatio (a.isNegative != b.isNegative) (a.numerator * b.numerator) (a.denominator * b.denominator)

/-- The quotient of two finite doubles, of which the second is not zero. -/
def div (a b : Double) : Double :=
  ofRatio (a.isNegative != b.isNegative) (a.numerator * b.denominator) (a.denominator * b.numerator)

def neg (a : Double) : Double := ofMagnitude (!a.isNegative) a.magnitude

end Double

end FunctionApp
