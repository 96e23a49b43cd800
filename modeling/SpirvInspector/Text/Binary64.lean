import SpirvInspector.Text.Digits

/-!
# Decimal text of binary64 numbers

A finite double is exactly `significand · 2 ^ exponent`, so both written forms are computed in whole
numbers and rounded once, a half going to the even neighbour: a fixed number of decimal places, and
a number of significant digits that turns to scientific notation for very large and very small
magnitudes.
-/

set_option autoImplicit false

namespace SpirvInspector.Text

/-- The quotient rounded to the nearest whole number, a half to the even one. -/
def roundedQuotient (numerator denominator : Nat) : Nat :=
  let quotient := numerator / denominator
  let twice := 2 * (numerator % denominator)
  if twice < denominator then quotient
  else if twice = denominator ∧ quotient % 2 = 0 then quotient
  else quotient + 1

/-- What the 64 bits of a double stand for, its sign apart. -/
inductive Magnitude
  | finite (numerator denominator : Nat)
  | infinite
  | undefined
deriving DecidableEq, Repr

namespace Magnitude

def ofBits (bits : UInt64) : Magnitude :=
  let fraction := bits.toNat % 0x10000000000000
  let biased := bits.toNat / 0x10000000000000 % 2048
  if biased = 2047 then if fraction = 0 then infinite else undefined
  else if biased = 0 then finite fraction (1 <<< 1074)
  else
    let significand := 0x10000000000000 + fraction
    if biased ≥ 1075 then finite (significand <<< (biased - 1075)) 1
    else finite significand (1 <<< (1075 - biased))

end Magnitude

/-- The digits of `n` with the last `places` of them behind a point. -/
def withPoint (places n : Nat) : Bytes :=
  let digits := padLeft (places + 1) 48 (decimal n)
  let split := digits.length - places
  if places = 0 then digits else digits.take split ++ [46] ++ digits.drop split

/-- A written number without the zeros that end it behind a point, and without a bare point. -/
def trimFraction (text : Bytes) : Bytes :=
  if text.contains 46 then
    let kept := text.reverse.dropWhile (· == 48)
    (if kept.head? == some 46 then kept.drop 1 else kept).reverse
  else text

/-- The least number of decimal shifts, at most `bound`, that bring a fraction up to one. -/
def shiftsToOne (numerator denominator : Nat) : Nat → Nat
  | 0 => 0
  | bound + 1 =>
    if denominator ≤ numerator then 0
    else shiftsToOne (10 * numerator) denominator bound + 1

/-- The power of ten of the leading decimal digit of a positive fraction. -/
def decimalExponent (numerator denominator : Nat) : Int :=
  if denominator ≤ numerator then (digits 10 (numerator / denominator)).length - 1
  else -(shiftsToOne numerator denominator denominator : Int)

/-- The leading `precision` digits of a positive fraction, rounded, with the power of ten of the
first of them. Rounding up to a power of ten moves that power. -/
def leadingDigits (precision numerator denominator : Nat) : Nat × Int :=
  let exponent := decimalExponent numerator denominator
  let shift := (precision : Int) - 1 - exponent
  let rounded :=
    if 0 ≤ shift then roundedQuotient (numerator * Nat.pow 10 shift.toNat) denominator
    else roundedQuotient numerator (denominator * Nat.pow 10 (-shift).toNat)
  if rounded = Nat.pow 10 precision then (rounded / 10, exponent + 1) else (rounded, exponent)

/-- The exponent mark with its sign and at least two digits. -/
def exponentMark (exponent : Int) : Bytes :=
  ascii (if exponent < 0 then "e-" else "e+") ++ padLeft 2 48 (decimal exponent.natAbs)

/-- `precision` significant digits without trailing zeros: positional from 0.0001 up to the power of
ten that still fits, scientific outside. -/
def generalFraction (precision numerator denominator : Nat) : Bytes :=
  if numerator = 0 then decimal 0
  else
    let (leading, exponent) := leadingDigits precision numerator denominator
    if -4 ≤ exponent ∧ exponent < precision then
      trimFraction (withPoint ((precision : Int) - 1 - exponent).toNat leading)
    else trimFraction (withPoint (precision - 1) leading) ++ exponentMark exponent

/-- `places` digits behind the point. -/
def fixedFraction (places numerator denominator : Nat) : Bytes :=
  withPoint places (roundedQuotient (numerator * Nat.pow 10 places) denominator)

/-- A sign in front of the magnitude. Every double has one, also zero and what is not a number. -/
def renderBits (finite : Nat → Nat → Bytes) (bits : UInt64) : Bytes :=
  let sign := if bits.toNat < 0x8000000000000000 then [] else ascii "-"
  sign ++ match Magnitude.ofBits bits with
    | .finite numerator denominator => finite numerator denominator
    | .infinite => ascii "inf"
    | .undefined => ascii "nan"

/-- Six significant digits of the double with these bits. -/
def general (bits : UInt64) : Bytes :=
  renderBits (generalFraction 6) bits

/-- A fixed number of decimal places; a negative number of them means six. -/
def fixed (places : Int) (bits : UInt64) : Bytes :=
  renderBits (fixedFraction (if places < 0 then 6 else places.toNat)) bits

end SpirvInspector.Text
