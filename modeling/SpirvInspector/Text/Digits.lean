import SpirvInspector.Bytes

/-!
# Numerals

Positional digits in any base, most significant first, and the two written forms that the library
uses: upper-case hexadecimal, zero-filled to a number of columns, and decimal.
-/

set_option autoImplicit false

namespace SpirvInspector.Text

/-- Pushes the digits of `n` in front of `later`. The first argument bounds the number of digits. -/
def pushDigits (base : Nat) : Nat → Nat → List Nat → List Nat
  | 0, _, later => later
  | bound + 1, n, later =>
    let digits := n % base :: later
    if n / base = 0 then digits else pushDigits base bound (n / base) digits

/-- The digits of `n`, with no leading zero; zero itself has the one digit 0. -/
def digits (base n : Nat) : List Nat :=
  pushDigits base (n + 1) n []

def digitByte (d : Nat) : UInt8 :=
  if d < 10 then (48 + d).toUInt8 else (55 + d).toUInt8

def numeral (base n : Nat) : Bytes :=
  (digits base n).map digitByte

def decimal (n : Nat) : Bytes :=
  numeral 10 n

/-- A minus sign in front of the magnitude of a negative number. -/
def signedDecimal (n : Int) : Bytes :=
  if n < 0 then 45 :: decimal n.natAbs else decimal n.natAbs

/-- `text` moved to the right end of `width` columns. -/
def padLeft (width : Nat) (fill : UInt8) (text : Bytes) : Bytes :=
  List.replicate (width - text.length) fill ++ text

/-- `text` kept at the left end of `width` columns. -/
def padRight (width : Nat) (fill : UInt8) (text : Bytes) : Bytes :=
  text ++ List.replicate (width - text.length) fill

@[simp] theorem length_padLeft (width : Nat) (fill : UInt8) (text : Bytes) :
    (padLeft width fill text).length = max width text.length := by
  simp only [padLeft, List.length_append, List.length_replicate]
  omega

@[simp] theorem length_padRight (width : Nat) (fill : UInt8) (text : Bytes) :
    (padRight width fill text).length = max width text.length := by
  simp only [padRight, List.length_append, List.length_replicate]
  omega

/-- Hexadecimal, zero-filled to `columns`; a longer numeral is never cut. -/
def hex (columns n : Nat) : Bytes :=
  padLeft columns 48 (numeral 16 n)

/-- Hexadecimal marked by `0x`, without leading zeros. -/
def hexMarked (n : Nat) : Bytes :=
  ascii "0x" ++ hex 0 n

end SpirvInspector.Text
