import SpirvInspector.Proofs.Text.Numerals
import SpirvInspector.Text.BitSet

/-!
# Sets of named bits are described without loss

Whatever the masks are, what is written of a value accounts for each of its bits once: by the first
name of exactly this value, or by names that share no bit, with the bits that no name is left for in
hexadecimal. Where the names can be told from each other and from hexadecimal, the value can be read
back.
-/

set_option autoImplicit false

namespace SpirvInspector.Text

section Bits

variable {a b left mask other remainder : UInt64}

/-- Numbers that agree in every bit are the same. -/
theorem bits_inj :
    a = b ↔ ∀ position (_ : position < 64), a.toBitVec[position] = b.toBitVec[position] := by
  rw [← UInt64.toBitVec_inj]
  constructor
  · intro same position _
    rw [same]
  · exact BitVec.eq_of_getElem_eq

theorem and_eq_self_of_and_not (within : left &&& ~~~mask &&& other = other) :
    left &&& other = other := by
  simp only [bits_inj, UInt64.toBitVec_and, UInt64.toBitVec_not, BitVec.getElem_and,
    BitVec.getElem_not] at within ⊢
  grind

theorem and_eq_zero_of_and_not (within : left &&& ~~~mask &&& other = other) :
    mask &&& other = 0 := by
  simp only [bits_inj, UInt64.toBitVec_and, UInt64.toBitVec_not, UInt64.toBitVec_ofNat,
    BitVec.getElem_and, BitVec.getElem_not, BitVec.getElem_zero] at within ⊢
  grind

theorem or_and_not (within : left &&& mask = mask) : mask ||| left &&& ~~~mask = left := by
  simp only [bits_inj, UInt64.toBitVec_and, UInt64.toBitVec_or, UInt64.toBitVec_not,
    BitVec.getElem_and, BitVec.getElem_or, BitVec.getElem_not] at within ⊢
  grind

theorem and_eq_self_of_or (complete : a ||| remainder = left)
    (within : remainder &&& mask = mask) : left &&& mask = mask := by
  simp only [bits_inj, UInt64.toBitVec_and, UInt64.toBitVec_or, BitVec.getElem_and,
    BitVec.getElem_or] at complete within ⊢
  grind

theorem and_eq_zero_of_or (complete : a ||| remainder = left &&& ~~~mask) :
    remainder &&& mask = 0 := by
  simp only [bits_inj, UInt64.toBitVec_and, UInt64.toBitVec_or, UInt64.toBitVec_not,
    UInt64.toBitVec_ofNat, BitVec.getElem_and, BitVec.getElem_or, BitVec.getElem_not,
    BitVec.getElem_zero] at complete ⊢
  grind

end Bits

/-- Text that shows a number in hexadecimal, behind the mark of it. -/
inductive Hexadecimal (n : Nat) : Bytes → Prop
  | marked {digits : Bytes} (nonempty : digits ≠ [])
      (shown : ∀ b ∈ digits, isHexDigit b = true) (value : valueOf 16 digits = n) :
      Hexadecimal n (ascii "0x" ++ digits)

theorem Hexadecimal.ne_nil {n : Nat} {text : Bytes} (hexadecimal : Hexadecimal n text) :
    text ≠ [] := by
  cases hexadecimal with
  | marked nonempty => exact List.append_ne_nil_of_right_ne_nil _ nonempty

theorem Hexadecimal.notMem {n : Nat} {text : Bytes} {b : UInt8} (hexadecimal : Hexadecimal n text)
    (notMark : b ∉ ascii "0x") (notDigit : isHexDigit b = false) : b ∉ text := by
  cases hexadecimal with
  | marked nonempty shown isValue =>
    intro isIn
    rcases List.mem_append.mp isIn with isMark | isDigit
    · exact notMark isMark
    · rw [shown b isDigit] at notDigit
      cases notDigit

theorem hexadecimal_hexMarked (n : Nat) : Hexadecimal n (hexMarked n) := by
  apply Hexadecimal.marked
  · exact hex_ne_nil 0 n
  · intro b isIn
    exact isHexDigit_of_mem_hex isIn
  · exact valueOf_hex 0 n

namespace BitSet

/-- All bits of several masks. -/
def union (masks : List UInt64) : UInt64 :=
  masks.foldr (· ||| ·) 0

@[simp] theorem union_cons (mask : UInt64) (masks : List UInt64) :
    union (mask :: masks) = mask ||| union masks := rfl

theorem union_append (first second : List UInt64) :
    union (first ++ second) = union first ||| union second := by
  induction first with
  | nil => exact UInt64.zero_or.symm
  | cons mask masks inductionHypothesis =>
    rw [List.cons_append, union_cons, union_cons, inductionHypothesis, UInt64.or_assoc]

/-- `Claims value names claimed remainder`: the claimed names and the remainder share out the bits
of the value. -/
structure Claims (value : UInt64) (names claimed : List BitName) (remainder : UInt64) : Prop where
  /-- In table order. -/
  ordered : claimed.Sublist names
  nonzero : ∀ name ∈ claimed, name.mask ≠ 0
  within : ∀ name ∈ claimed, value &&& name.mask = name.mask
  disjoint : claimed.Pairwise fun first second => first.mask &&& second.mask = 0
  complete : union (claimed.map BitName.mask) ||| remainder = value
  apart : ∀ name ∈ claimed, remainder &&& name.mask = 0
  /-- No name could have claimed more. -/
  exhausted : ∀ name ∈ names, name.mask ≠ 0 → remainder &&& name.mask ≠ name.mask

namespace Claims

variable {value remainder : UInt64} {names claimed : List BitName} {name : BitName}

theorem nil (value : UInt64) : Claims value [] [] value :=
  ⟨List.Sublist.refl [], nofun, nofun, .nil, UInt64.zero_or, nofun, nofun⟩

/-- A name that fits takes its bits, and the others share out the rest. -/
theorem take (nonzero : name.mask ≠ 0) (fits : value &&& name.mask = name.mask)
    (claims : Claims (value &&& ~~~name.mask) names claimed remainder) :
    Claims value (name :: names) (name :: claimed) remainder := by
  have taken : remainder &&& name.mask = 0 := and_eq_zero_of_or claims.complete
  constructor
  case ordered => exact claims.ordered.cons_cons name
  case nonzero => exact List.forall_mem_cons.mpr ⟨nonzero, claims.nonzero⟩
  case within =>
    refine List.forall_mem_cons.mpr ⟨fits, ?_⟩
    intro later isClaimed
    exact and_eq_self_of_and_not (claims.within later isClaimed)
  case disjoint =>
    refine List.pairwise_cons.mpr ⟨?_, claims.disjoint⟩
    intro later isClaimed
    exact and_eq_zero_of_and_not (claims.within later isClaimed)
  case complete =>
    rw [List.map_cons, union_cons, UInt64.or_assoc, claims.complete]
    exact or_and_not fits
  case apart => exact List.forall_mem_cons.mpr ⟨taken, claims.apart⟩
  case exhausted =>
    refine List.forall_mem_cons.mpr ⟨?_, claims.exhausted⟩
    intro _ whole
    exact nonzero (whole.symm.trans taken)

/-- A name that does not fit the value fits no part of it. -/
theorem skip (misfit : ¬(name.mask ≠ 0 ∧ value &&& name.mask = name.mask))
    (claims : Claims value names claimed remainder) :
    Claims value (name :: names) claimed remainder := by
  refine ⟨claims.ordered.cons name, claims.nonzero, claims.within, claims.disjoint,
    claims.complete, claims.apart, List.forall_mem_cons.mpr ⟨?_, claims.exhausted⟩⟩
  intro nonzero whole
  exact misfit ⟨nonzero, and_eq_self_of_or claims.complete whole⟩

end Claims

theorem claim_claims (value : UInt64) (names : List BitName) :
    Claims value names (claim value names).1 (claim value names).2 := by
  induction names generalizing value with
  | nil => exact .nil value
  | cons name names inductionHypothesis =>
    unfold claim
    split
    · next fits => exact .take fits.1 fits.2 (inductionHypothesis _)
    · next misfit => exact .skip misfit (inductionHypothesis _)

/-- What is written of a remainder. -/
inductive Leftover : UInt64 → List Bytes → Prop
  | nothing : Leftover 0 []
  | shown {remainder : UInt64} {text : Bytes} (remains : remainder ≠ 0)
      (hexadecimal : Hexadecimal remainder.toNat text) : Leftover remainder [text]

/-- `Describes value names text`: the text is what the rules make of a value and its names. -/
inductive Describes (value : UInt64) (names : List BitName) : Bytes → Prop
  /-- The first name of exactly the value. -/
  | exact {before behind : List BitName} {name : BitName} (split : names = before ++ name :: behind)
      (first : ∀ earlier ∈ before, earlier.mask ≠ value) (same : name.mask = value) :
      Describes value names name.symbol
  | zero (isZero : value = 0) (unnamed : ∀ name ∈ names, name.mask ≠ value) :
      Describes value names (ascii "0x0")
  | parts {claimed : List BitName} {remainder : UInt64} {leftover : List Bytes}
      (nonzero : value ≠ 0) (unnamed : ∀ name ∈ names, name.mask ≠ value)
      (claims : Claims value names claimed remainder) (rest : Leftover remainder leftover) :
      Describes value names ((ascii "|").intercalate (claimed.map BitName.symbol ++ leftover))

theorem describes_expand (value : UInt64) (names : List BitName) :
    Describes value names (expand value names) := by
  unfold expand
  split
  · next name found =>
    obtain ⟨same, before, behind, split, first⟩ := List.find?_eq_some_iff_append.mp found
    refine .exact split ?_ (eq_of_beq same)
    intro earlier isBefore
    simpa using first earlier isBefore
  · next missing =>
    have unnamed : ∀ name ∈ names, name.mask ≠ value := by
      intro name isName
      simpa using List.find?_eq_none.mp missing name isName
    split
    · next isZero => exact .zero isZero unnamed
    · next nonzero =>
      apply Describes.parts nonzero unnamed (claim_claims value names)
      split
      · next none =>
        rw [none]
        exact .nothing
      · next remains => exact .shown remains (hexadecimal_hexMarked _)

section Parts

variable {value : UInt64} {names : List BitName} {text : Bytes}

theorem Claims.parts_ne_nil {claimed : List BitName} {remainder : UInt64} {leftover : List Bytes}
    (claims : Claims value names claimed remainder) (rest : Leftover remainder leftover)
    (nonzero : value ≠ 0) : claimed.map BitName.symbol ++ leftover ≠ [] := by
  intro empty
  obtain ⟨none, nothing⟩ := List.append_eq_nil_iff.mp empty
  have complete := claims.complete
  rw [List.map_eq_nil_iff.mp none] at complete
  cases rest with
  | nothing => exact nonzero complete.symm
  | shown => cases nothing

theorem Describes.ne_nil (describes : Describes value names text)
    (named : ∀ name ∈ names, name.symbol ≠ []) : text ≠ [] := by
  cases describes with
  | exact split first same => exact named _ (by simp [split])
  | zero => decide
  | @parts claimed remainder leftover nonzero unnamed claims rest =>
    have some := claims.parts_ne_nil rest nonzero
    have shown : ∀ part ∈ claimed.map BitName.symbol ++ leftover, part ≠ [] := by
      intro part isPart
      rcases List.mem_append.mp isPart with isSymbol | isLeftover
      · obtain ⟨name, isClaimed, rfl⟩ := List.mem_map.mp isSymbol
        exact named name (claims.ordered.subset isClaimed)
      · cases rest with
        | nothing => cases isLeftover
        | shown remains hexadecimal =>
          rw [List.mem_singleton.mp isLeftover]
          exact hexadecimal.ne_nil
    generalize claimed.map BitName.symbol ++ leftover = parts at some shown
    cases parts with
    | nil => exact (some rfl).elim
    | cons part later =>
      have first : part ≠ [] := shown part List.mem_cons_self
      cases later <;> simp [first]

end Parts

/-- What is written of a value accounts for all of its bits, and something is written. -/
theorem expand_lossless (value : UInt64) (names : List BitName) :
    Describes value names (expand value names) ∧
      ((∀ name ∈ names, name.symbol ≠ []) → expand value names ≠ []) := by
  have describes := describes_expand value names
  exact ⟨describes, describes.ne_nil⟩

/-- Two names that overlap, of which the first one takes the bit that they share. -/
def overlapping : List BitName :=
  [⟨0, ascii "None"⟩, ⟨3, ascii "Low"⟩, ⟨6, ascii "High"⟩]

theorem expand_overlapping :
    Describes 7 overlapping (ascii "Low|0x4") ∧ ascii "Low|0x4" ≠ [] := by
  have written : expand 7 overlapping = ascii "Low|0x4" := by decide
  obtain ⟨describes, nonempty⟩ := expand_lossless 7 overlapping
  rw [written] at describes nonempty
  exact ⟨describes, nonempty (by decide)⟩

/-- Names that can be told from each other and from hexadecimal, one by one and joined by bars. -/
structure Legible (names : List BitName) : Prop where
  distinct : (names.map BitName.symbol).Nodup
  barless : ∀ name ∈ names, 124 ∉ name.symbol
  unmarked : ∀ name ∈ names, ¬ascii "0x" <+: name.symbol

/-- The bits that one part of a description stands for. -/
def partMask (names : List BitName) (part : Bytes) : UInt64 :=
  match names.find? (fun name => name.symbol == part) with
  | some name => name.mask
  | none => UInt64.ofNat (valueOf 16 (part.drop 2))

/-- The value that a description stands for. -/
def readBack (names : List BitName) (text : Bytes) : UInt64 :=
  union ((text.splitOn 124).map (partMask names))

section ReadBack

variable {names : List BitName} {name : BitName} {value : UInt64} {text : Bytes}

theorem partMask_symbol (legible : Legible names) (isName : name ∈ names) :
    partMask names name.symbol = name.mask := by
  unfold partMask
  split
  · next found isFound =>
    have same : found.symbol = name.symbol := by simpa using List.find?_some isFound
    rw [List.inj_on_of_nodup_map legible.distinct (List.mem_of_find?_eq_some isFound) isName same]
  · next missing => simpa using List.find?_eq_none.mp missing name isName

theorem partMask_hexadecimal (legible : Legible names)
    (hexadecimal : Hexadecimal value.toNat text) : partMask names text = value := by
  cases hexadecimal with
  | @marked digits nonempty shown isValue =>
    unfold partMask
    split
    · next found isFound =>
      have same : found.symbol = ascii "0x" ++ digits := by simpa using List.find?_some isFound
      refine (legible.unmarked found (List.mem_of_find?_eq_some isFound) ?_).elim
      rw [same]
      exact List.prefix_append _ _
    · have behind : (ascii "0x" ++ digits).drop 2 = digits := rfl
      rw [behind, isValue, UInt64.ofNat_toNat]

theorem bar_notMem_hexadecimal {n : Nat} (hexadecimal : Hexadecimal n text) : 124 ∉ text :=
  hexadecimal.notMem (by decide) rfl

theorem readBack_intercalate {parts : List Bytes} (some : parts ≠ [])
    (barless : ∀ part ∈ parts, 124 ∉ part) :
    readBack names ((ascii "|").intercalate parts) = union (parts.map (partMask names)) := by
  have bar : ascii "|" = [124] := rfl
  rw [readBack, bar, List.splitOn_intercalate 124 barless some]

theorem readBack_part (barless : 124 ∉ text) : readBack names text = partMask names text := by
  have alone : readBack names ((ascii "|").intercalate [text]) =
      union ([text].map (partMask names)) :=
    readBack_intercalate (List.cons_ne_nil text []) (by simpa using barless)
  rw [List.intercalate_singleton] at alone
  exact alone.trans UInt64.or_zero

/-- What describes a value by legible names is read back as this value. -/
theorem Describes.readBack_eq (describes : Describes value names text) (legible : Legible names) :
    readBack names text = value := by
  cases describes with
  | @exact before behind name split first same =>
    have isName : name ∈ names := by simp [split]
    rw [readBack_part (legible.barless name isName), partMask_symbol legible isName, same]
  | zero isZero unnamed =>
    have hexadecimal : Hexadecimal value.toNat (ascii "0x0") := by
      rw [isZero]
      exact hexadecimal_hexMarked 0
    rw [readBack_part (bar_notMem_hexadecimal hexadecimal),
      partMask_hexadecimal legible hexadecimal]
  | @parts claimed remainder leftover nonzero unnamed claims rest =>
    have isName : ∀ name ∈ claimed, name ∈ names := claims.ordered.subset
    have symbols : (claimed.map BitName.symbol).map (partMask names) =
        claimed.map BitName.mask := by
      rw [List.map_map]
      apply List.map_congr_left
      intro name isClaimed
      exact partMask_symbol legible (isName name isClaimed)
    have last : union (leftover.map (partMask names)) = remainder := by
      cases rest with
      | nothing => rfl
      | shown remains hexadecimal =>
        rw [List.map_singleton, union_cons, partMask_hexadecimal legible hexadecimal]
        exact UInt64.or_zero
    have barless : ∀ part ∈ claimed.map BitName.symbol ++ leftover, 124 ∉ part := by
      intro part isPart
      rcases List.mem_append.mp isPart with isSymbol | isLeftover
      · obtain ⟨name, isClaimed, rfl⟩ := List.mem_map.mp isSymbol
        exact legible.barless name (isName name isClaimed)
      · cases rest with
        | nothing => cases isLeftover
        | shown remains hexadecimal =>
          rw [List.mem_singleton.mp isLeftover]
          exact bar_notMem_hexadecimal hexadecimal
    rw [readBack_intercalate (claims.parts_ne_nil rest nonzero) barless, List.map_append, symbols,
      union_append, last, claims.complete]

end ReadBack

end BitSet

end SpirvInspector.Text
