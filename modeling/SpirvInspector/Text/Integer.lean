import SpirvInspector.Bytes

/-!
# Reading decimal integers

Reads blanks, a sign and digits from the start of a text. The number is clamped to 64 bits and then
keeps its low 32 bits; the text is an integer only if nothing is left behind the digits.
-/

set_option autoImplicit false

namespace SpirvInspector.Text

def isBlank (b : UInt8) : Bool :=
  b == 32 || (9 ≤ b && b ≤ 13)

def isDigit (b : UInt8) : Bool :=
  48 ≤ b && b ≤ 57

/-- The number that decimal digits stand for. -/
def ofDigits (digits : Bytes) : Nat :=
  digits.foldl (fun n digit => 10 * n + (digit.toNat - 48)) 0

/-- A sign, if there is one, and the text behind it. -/
def splitSign : Bytes → Bool × Bytes
  | 45 :: rest => (true, rest)
  | 43 :: rest => (false, rest)
  | rest => (false, rest)

/-- The nearest integer of 64 bits. -/
def clamp64 (n : Int) : Int :=
  max (-0x8000000000000000) (min 0x7fffffffffffffff n)

/-- The low 32 bits as a signed integer. -/
def wrap32 (n : Int) : Int :=
  n.bmod 0x100000000

structure IntegerReading where
  value : Int
  /-- Whether all of the text belongs to the integer. -/
  whole : Bool
deriving DecidableEq, Repr

/-- Reads an integer; the empty text holds nothing to read. -/
def readInteger (text : Bytes) : Option IntegerReading :=
  if text.isEmpty then none
  else
    let (negative, rest) := splitSign (text.dropWhile isBlank)
    let digits := rest.takeWhile isDigit
    if digits.isEmpty then some ⟨0, false⟩
    else
      let magnitude : Int := ofDigits digits
      let value := wrap32 (clamp64 (if negative then -magnitude else magnitude))
      some ⟨value, (rest.dropWhile isDigit).isEmpty⟩

/-- The integer that a text is. -/
def integer? (text : Bytes) : Option Int :=
  match readInteger text with
  | some reading => if reading.whole then some reading.value else none
  | none => none

end SpirvInspector.Text
