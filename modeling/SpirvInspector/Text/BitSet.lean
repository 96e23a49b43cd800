import SpirvInspector.Text.Digits

/-!
# Sets of named bits

A value whose bits have names is written as the names joined by bars. A name for exactly the value
wins, so zero can have a name of its own; bits that no name covers are written in hexadecimal.
-/

set_option autoImplicit false

namespace SpirvInspector.Text

structure BitName where
  mask : UInt64
  symbol : Bytes
deriving DecidableEq

namespace BitSet

/-- Takes names in table order, each claiming its bits when all of them are still unclaimed, and
gives back the claimed names with the bits that are left. -/
def claim : UInt64 → List BitName → List BitName × UInt64
  | left, [] => ([], left)
  | left, name :: names =>
    if name.mask ≠ 0 ∧ left &&& name.mask = name.mask then
      let (claimed, remainder) := claim (left &&& ~~~name.mask) names
      (name :: claimed, remainder)
    else claim left names

/-- The names that describe `value`, and the remainder in hexadecimal when there is one. -/
def parts (value : UInt64) (names : List BitName) : List Bytes :=
  let (claimed, remainder) := claim value names
  claimed.map BitName.symbol ++ if remainder = 0 then [] else [hexMarked remainder.toNat]

def expand (value : UInt64) (names : List BitName) : Bytes :=
  match names.find? (fun name => name.mask == value) with
  | some name => name.symbol
  | none => if value = 0 then hexMarked 0 else (ascii "|").intercalate (parts value names)

end BitSet

end SpirvInspector.Text
