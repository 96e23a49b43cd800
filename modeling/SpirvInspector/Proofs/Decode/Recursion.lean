import Mathlib.Data.List.Chain
import SpirvInspector.Decode.Operands

/-!
# The recursion of the decoder

A decode calls the decoder again for the kinds that its operand refers to: the members of a pair, or
the parameters of enumerants. No kind refers back to one that led to it. So a decode never meets the
kind that it decodes inside of itself, and calls nest no deeper than there are kinds. Here this is
said of a decoder that knows the kinds it is inside of and stops at each of them. It ends without
any regard to the tables, and it does what the decoder does.
-/

set_option autoImplicit false

namespace SpirvInspector

namespace OperandKind

/-- The kinds that operands of a kind refer to. -/
def references (kind : OperandKind) : List OperandKind :=
  kind.shape.members ++ kind.enumerants.flatMap Enumerant.parameters

theorem rank_lt_of_mem_references {kind other : OperandKind} (referred : other ∈ kind.references) :
    other.rank < kind.rank := by
  rcases List.mem_append.mp referred with isMember | isParameter
  · exact rank_lt_of_mem_members isMember
  · obtain ⟨enumerant, isEnumerant, isParameter⟩ := List.mem_flatMap.mp isParameter
    exact rank_lt_of_mem_parameters isEnumerant isParameter

/-- From reference to reference, no kind comes twice. -/
theorem nodup_of_isChain {path : List OperandKind}
    (chain : path.IsChain fun outer inner => inner ∈ outer.references) : path.Nodup := by
  have falling : path.IsChain fun outer inner => inner.rank < outer.rank :=
    chain.imp fun _ _ => rank_lt_of_mem_references
  have : IsTrans OperandKind fun outer inner => inner.rank < outer.rank :=
    ⟨fun _ _ _ first second => Nat.lt_trans second first⟩
  refine falling.pairwise.imp ?_
  rintro outer inner lower rfl
  exact Nat.lt_irrefl _ lower

/-- The kinds that are not in a path. -/
def outside (path : List OperandKind) : List OperandKind :=
  all.filter fun kind => kind ∉ path

theorem length_outside_lt {kind : OperandKind} {path : List OperandKind} (fresh : kind ∉ path) :
    (outside (kind :: path)).length < (outside path).length := by
  have fewer : outside (kind :: path) = (outside path).filter fun other => other ≠ kind := by
    rw [outside, outside, List.filter_filter]
    apply List.filter_congr
    intro other _
    simp
  rw [fewer, List.length_filter_lt_length_iff_exists]
  exact ⟨kind, by simp [outside, fresh, kind.mem_all], by simp⟩

/-- Decodes a kind inside of the decodes of the kinds in `path`. Where one of these is met again,
it is not decoded, and what `astray` gives is taken for it. -/
def decodeInside (astray : OperandKind → Cursor → Decoded) (path : List OperandKind)
    (kind : OperandKind) : Cursor → Decoded :=
  if kind ∈ path then astray kind
  else decodeWith (decodeInside astray (kind :: path)) kind
termination_by (outside path).length
decreasing_by exact length_outside_lt ‹_›

/-- Inside of kinds of higher rank, no kind is met again: all that a decode meets is of lower rank
still. -/
theorem decodeInside_eq (astray : OperandKind → Cursor → Decoded) {path : List OperandKind}
    {kind : OperandKind} (inside : ∀ outer ∈ path, kind.rank < outer.rank) :
    decodeInside astray path kind = kind.decode := by
  induction rank : kind.rank using Nat.strongRecOn generalizing path kind with
  | ind rank inductionHypothesis =>
    subst rank
    have fresh : kind ∉ path := fun isOuter => Nat.lt_irrefl _ (inside kind isOuter)
    rw [decodeInside, if_neg fresh, decode_eq_decodeWith]
    apply decodeWith_congr
    intro other lower
    have otherInside : ∀ outer ∈ kind :: path, other.rank < outer.rank := by
      intro outer isOuter
      rcases List.mem_cons.mp isOuter with rfl | isOuter
      · exact lower
      · exact Nat.lt_trans lower (inside outer isOuter)
    exact inductionHypothesis other.rank lower otherInside rfl

end OperandKind

end SpirvInspector
