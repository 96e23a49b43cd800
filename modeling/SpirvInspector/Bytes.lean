/-!
# Byte strings

A binary module and the text written about it are both strings of bytes: a string literal inside a
module is printed as the bytes it holds, and every width in the output counts bytes.
-/

set_option autoImplicit false

namespace SpirvInspector

abbrev Bytes := List UInt8

/-- The bytes of a text literal. -/
def ascii (s : String) : Bytes := s.toUTF8.data.toList

namespace Bytes

def newline : UInt8 := 10

def space : UInt8 := 32

/-- Whether there are `n` bytes, looking no further than the first `n`. -/
def hasAtLeast : Bytes → Nat → Bool
  | _, 0 => true
  | [], _ + 1 => false
  | _ :: rest, n + 1 => hasAtLeast rest n

theorem hasAtLeast_iff (bytes : Bytes) (n : Nat) :
    bytes.hasAtLeast n = true ↔ n ≤ bytes.length := by
  induction bytes generalizing n with
  | nil => cases n <;> simp [hasAtLeast]
  | cons _ rest inductionHypothesis => cases n <;> simp [hasAtLeast, inductionHypothesis]

/-- The text after the last byte that satisfies `isSeparator`, or all of it if there is none. -/
def afterLast (isSeparator : UInt8 → Bool) (text : Bytes) : Bytes :=
  (text.reverse.takeWhile (fun b => !isSeparator b)).reverse

/-- What follows `start` in a text that begins with it. -/
def dropStart? : Bytes → Bytes → Option Bytes
  | text, [] => some text
  | [], _ :: _ => none
  | b :: text, s :: start => if b = s then dropStart? text start else none

theorem dropStart?_eq_some_iff (text start rest : Bytes) :
    text.dropStart? start = some rest ↔ text = start ++ rest := by
  induction start generalizing text with
  | nil => simp [dropStart?, eq_comm]
  | cons s start inductionHypothesis =>
    cases text with
    | nil => simp [dropStart?]
    | cons b text =>
      by_cases same : b = s <;> simp [dropStart?, same, inductionHypothesis]

end Bytes

end SpirvInspector
