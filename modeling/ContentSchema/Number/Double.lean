/-!
# Double precision numbers

Binary floating point numbers of 64 bits, kept as their bit pattern, so that two of them are equal
exactly when nothing tells them apart.  `Double.view` shows the number behind the bits;
`Double.ofRatio` rounds a quotient of natural numbers to the nearest double, a tie to the even one.
-/

namespace ContentSchema

/-- A double precision number, given by its bits. -/
structure Double where
  /-- Sign, eleven bits of exponent and fifty-two of fraction. -/
  bits : UInt64
deriving DecidableEq, Repr, Inhabited

namespace Double

/-- What the bits of a double stand for, up to the sign. -/
inductive View where
  /-- The number `mantissa * 2 ^ exponent`. -/
  | finite (mantissa : Nat) (exponent : Int)
  /-- Beyond all numbers. -/
  | infinite
  /-- No number. -/
  | nan
deriving DecidableEq, Repr

/-- Whether the sign bit is set. -/
def isNegative (x : Double) : Bool := Nat.pow 2 63 ≤ x.bits.toNat

/-- The bits of the exponent as a number. -/
def exponentBits (x : Double) : Nat := x.bits.toNat / Nat.pow 2 52 % Nat.pow 2 11

/-- The bits of the fraction as a number. -/
def fractionBits (x : Double) : Nat := x.bits.toNat % Nat.pow 2 52

/-- What the double stands for, up to the sign. -/
def view (x : Double) : View :=
  if x.exponentBits = 2047 then if x.fractionBits = 0 then .infinite else .nan
  else if x.exponentBits = 0 then .finite x.fractionBits (-1074)
  else .finite (Nat.pow 2 52 + x.fractionBits) (x.exponentBits - 1075)

/-- The double with the given sign whose other bits are `magnitude`. -/
def ofMagnitude (negative : Bool) (magnitude : Nat) : Double :=
  ⟨.ofNat (if negative then Nat.pow 2 63 + magnitude else magnitude)⟩

/-- The bits, but for the sign, of an infinite double. -/
def infiniteBits : Nat := 2047 * Nat.pow 2 52

/-- Positive or negative infinity. -/
def infinity (negative : Bool) : Double := ofMagnitude negative infiniteBits

/-- The double that is no number. -/
def nan : Double := ofMagnitude false (infiniteBits + Nat.pow 2 51)

/-- The quotient `num / den` rounded to the nearest natural number, a tie to the even one. -/
def roundDiv (num den : Nat) : Nat :=
  let q := num / den
  let r := num % den
  if 2 * r < den then q
  else if den < 2 * r then q + 1
  else if q % 2 = 0 then q else q + 1

/-- The exponent of the doubles next to `num / den`: the mantissa of the quotient has fifty-three
bits under it, fewer only at the least exponent. -/
def exponentFor (num den : Nat) : Int :=
  let guess : Int := (num.log2 : Int) - den.log2 - 52
  let scaledNum := if guess < 0 then num * Nat.pow 2 (-guess).toNat else num
  let scaledDen := if guess < 0 then den else den * Nat.pow 2 guess.toNat
  let exact := if scaledNum < scaledDen * Nat.pow 2 52 then guess - 1 else guess
  max exact (-1074)

/-- The bits, but for the sign, of the double nearest to the quotient `num / den`. -/
def magnitudeOfRatio (num den : Nat) : Nat :=
  let q := exponentFor num den
  let mantissa :=
    if q < 0 then roundDiv (num * Nat.pow 2 (-q).toNat) den else roundDiv num (den * Nat.pow 2 q.toNat)
  min infiniteBits ((q + 1074).toNat * Nat.pow 2 52 + mantissa)

/-- The double nearest to the quotient of two natural numbers, the second one positive. -/
def ofRatio (negative : Bool) (num den : Nat) : Double :=
  ofMagnitude negative (if num = 0 then 0 else magnitudeOfRatio num den)

/-- The double nearest to `digits * 10 ^ exponent`, where `digits` has `count` decimal digits at
most.  Exponents far outside the range of doubles are decided without computing the power. -/
def ofDecimal (negative : Bool) (digits count : Nat) (exponent : Int) : Double :=
  if digits = 0 then ofMagnitude negative 0
  else if 400 < exponent then infinity negative
  else if exponent + count < -400 then ofMagnitude negative 0
  else if 0 ≤ exponent then ofRatio negative (digits * Nat.pow 10 exponent.toNat) 1
  else ofRatio negative digits (Nat.pow 10 (-exponent).toNat)

/-- The whole number that a double equals; `none` if it is no whole number. -/
def toInt? (x : Double) : Option Int :=
  match x.view with
  | .finite m q =>
    let magnitude : Option Nat :=
      if 0 ≤ q then some (m * Nat.pow 2 q.toNat)
      else if m % Nat.pow 2 (-q).toNat = 0 then some (m / Nat.pow 2 (-q).toNat) else none
    magnitude.map fun n => if x.isNegative then -(n : Int) else n
  | _ => none

/-- Whether the double is a number. -/
def isFinite (x : Double) : Bool :=
  match x.view with
  | .finite .. => true
  | _ => false

end Double

end ContentSchema
