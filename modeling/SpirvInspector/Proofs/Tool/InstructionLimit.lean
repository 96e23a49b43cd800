import SpirvInspector.Proofs.Text.Integers
import SpirvInspector.Proofs.Tool.Groups

/-!
# The number of instructions that is written

A command line that is accepted writes its limit as an integer. The limit it sets is the number
written if that number fits into 31 bits. Beyond them the number is cut, so a large one may set a
small limit, or be refused for a negative one.
-/

set_option autoImplicit false

namespace SpirvInspector

namespace Tool

open Text (WrittenInteger clamp64 integer? wrap32)

theorem Options.limitOf?_eq_some_iff {value : Bytes} {limit : Nat} :
    limitOf? value = some limit ↔ integer? value = some (limit : Int) := by
  rw [limitOf?, Option.bind_eq_some_iff]
  constructor
  · rintro ⟨n, isInteger, isLimit⟩
    split at isLimit
    · cases isLimit
    · next natural =>
      cases isLimit
      rw [Int.toNat_of_nonneg (Int.not_lt.mp natural)]
      exact isInteger
  · intro isInteger
    exact ⟨limit, isInteger, by simp⟩

theorem Options.limitOf?_of_setLimit {value : Bytes} {options set : Options}
    (accepted : setLimit value options = (none, set)) : limitOf? value = some set.limit := by
  rw [setLimit_eq] at accepted
  split at accepted
  · next limit isLimit =>
    cases accepted
    exact isLimit
  · cases accepted

/-- A limit is given once, so it is not set again by the groups behind it. -/
theorem limit_outcome {groups : List Group} (fits : Fits [] groups)
    {spelling : CommandLine.Spelling} {value : Bytes}
    (isGiven : Group.limit spelling value ∈ groups) (options : Options) :
    Options.limitOf? value = some (Group.outcome options groups).limit := by
  obtain ⟨limit, isLimit⟩ := Option.isSome_iff_exists.mp (fits.valid _ isGiven)
  have once := fits.once
  obtain ⟨before, later, rfl⟩ := List.append_of_mem isGiven
  have unset : ∀ group ∈ later, group.limit? = none := by
    intro group isLater
    cases group with
    | limit spelling value =>
      have isKind : Kind.limit ∈ later.map Group.kind := List.mem_map_of_mem isLater
      simp [Group.kind, List.filter_append, List.nodup_append, isKind] at once
    | _ => rfl
  have lastSet : Group.last? Group.limit? (before ++ .limit spelling value :: later) =
      some limit := by
    rw [Group.last?, List.filterMap_append, List.filterMap_cons_some isLimit,
      List.filterMap_eq_nil_iff.mpr unset, List.getLast?_concat]
  rw [Group.outcome, lastSet]
  exact isLimit

/-- A value writes an integer, and a limit is what that integer is cut to. -/
def IsCutOf (limit : Nat) (value : Bytes) : Prop :=
  (∃ written : WrittenInteger, written.text = value) ∧
  ∀ written : WrittenInteger, written.text = value →
    limit = wrap32 (clamp64 written.value) ∧
    (limit = written.value ↔ 0 ≤ written.value ∧ written.value < 2 ^ 31)

theorem eq_cut_of_integer? {written : WrittenInteger} {value : Int}
    (isInteger : integer? written.text = some value) : value = wrap32 (clamp64 written.value) := by
  have isCut := Text.integer?_eq_some_iff.mpr ⟨written, rfl, rfl⟩
  exact Option.some.inj (isInteger.symm.trans isCut)

theorem isCutOf_of_limitOf? {limit : Nat} {value : Bytes}
    (isLimit : Options.limitOf? value = some limit) : IsCutOf limit value := by
  have isInteger := Options.limitOf?_eq_some_iff.mp isLimit
  constructor
  · obtain ⟨written, same, -⟩ := Text.integer?_eq_some_iff.mp isInteger
    exact ⟨written, same⟩
  · rintro written rfl
    have isCut := eq_cut_of_integer? isInteger
    have whole := Text.wrap32_clamp64_eq_iff written.value
    refine ⟨isCut, ?_⟩
    omega

/-- A text is read as an integer exactly if it is written as one, and the integer read is the low
32 bits of the nearest integer of 64 bits. It is the number written exactly if that fits into 32
bits. So a limit that is accepted, alone or within a command line, is the number written exactly if
that is natural and fits. -/
theorem limit_cut (value : Bytes) :
    (∀ n, integer? value = some n ↔
      ∃ written : WrittenInteger, written.text = value ∧ wrap32 (clamp64 written.value) = n) ∧
    (∀ (written : WrittenInteger) (n : Int), written.text = value → integer? value = some n →
      (n = written.value ↔ -2 ^ 31 ≤ written.value ∧ written.value < 2 ^ 31)) ∧
    (∀ options set, Options.setLimit value options = (none, set) → IsCutOf set.limit value) ∧
    ∀ groups options spelling, spec.parse {} (Group.line groups) = (none, options) →
      Group.limit spelling value ∈ groups → IsCutOf options.limit value := by
  refine ⟨fun n => Text.integer?_eq_some_iff, ?_, ?_, ?_⟩
  · rintro written n rfl isInteger
    rw [eq_cut_of_integer? isInteger]
    exact Text.wrap32_clamp64_eq_iff written.value
  · intro options set accepted
    exact isCutOf_of_limitOf? (Options.limitOf?_of_setLimit accepted)
  · intro groups options spelling accepted isGiven
    obtain ⟨fits, rfl⟩ := (parse_groups groups options).mp accepted
    exact isCutOf_of_limitOf? (limit_outcome fits isGiven {})

/-- The low 32 bits of this number are those of one. -/
def beyond32Bits : WrittenInteger :=
  ⟨[], .absent, ascii "4294967297", List.forall_mem_nil _, List.all_eq_true.mp (by decide),
    by decide⟩

def farLimit : List Group :=
  [.limit .shortEquals beyond32Bits.text, .file ⟨ascii "m.spv", by decide⟩]

theorem limit_cut_farLimit :
    integer? beyond32Bits.text = some 1 ∧ (1 : Int) ≠ beyond32Bits.value ∧
      IsCutOf 1 beyond32Bits.text ∧
      ∃ options, spec.parse {} (Group.line farLimit) = (none, options) ∧
        Group.limit .shortEquals beyond32Bits.text ∈ farLimit ∧
        options.limit = wrap32 (clamp64 beyond32Bits.value) ∧
        (options.limit : Int) ≠ beyond32Bits.value := by
  obtain ⟨reads, exact, accepts, sets⟩ := limit_cut beyond32Bits.text
  have isOne : integer? beyond32Bits.text = some 1 := (reads _).mpr ⟨beyond32Bits, rfl, by decide⟩
  have set : Options.setLimit beyond32Bits.text {} = (none, { limit := 1 }) := by decide
  have accepted : spec.parse {} (Group.line farLimit) =
      (none, ⟨#[ascii "m.spv"], false, 1, false, 0, 0⟩) := by decide
  have given : Group.limit .shortEquals beyond32Bits.text ∈ farLimit := List.mem_cons_self
  obtain ⟨cut, whole⟩ := (sets _ _ _ accepted given).2 beyond32Bits rfl
  have large : ¬beyond32Bits.value < 2 ^ 31 := by decide
  refine ⟨isOne, ?_, accepts _ _ set, _, accepted, given, cut, ?_⟩
  · exact fun same => large ((exact _ _ rfl isOne).mp same).2
  · exact fun same => large (whole.mp same).2

/-- An integer that is read may be another number than the one written, and so may a limit. -/
theorem not_forall_limit_written :
    (¬∀ (written : WrittenInteger) (value : Int), integer? written.text = some value →
      value = written.value) ∧
    ¬∀ groups options spelling (written : WrittenInteger),
      spec.parse {} (Group.line groups) = (none, options) →
        Group.limit spelling written.text ∈ groups → (options.limit : Int) = written.value := by
  constructor
  · intro whole
    have same := whole beyond32Bits 1 (by decide)
    revert same
    decide
  · intro whole
    have same := whole farLimit ⟨#[ascii "m.spv"], false, 1, false, 0, 0⟩ .shortEquals beyond32Bits
      (by decide) List.mem_cons_self
    revert same
    decide

end Tool

end SpirvInspector
