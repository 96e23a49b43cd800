import Mathlib.Data.List.Forall2
import SpirvInspector.Decode.Operands

/-!
# Instructions that conform to the grammar

The grammar as a relation between the logical operands of a form and the data of an instruction,
without any reference to how that data is read. The tables bear out two facts that make such an
instruction readable: the result type and the result id come first, and an operand without an end of
its own comes last.
-/

set_option autoImplicit false

namespace SpirvInspector

/-- `Opens kind head parts`: an operand of the kind is `head`, followed by one operand of each of
the kinds in `parts`. -/
inductive Opens : OperandKind → List Operand → List OperandKind → Prop
  | id {kind : OperandKind} (shape : kind.shape = .id) (id : Word) :
      Opens kind [⟨.listed kind, .id id⟩] []
  | number {kind : OperandKind} (shape : kind.shape = .number) (value : UInt32) :
      Opens kind [⟨.listed kind, .number32 value⟩] []
  | shortNumber {kind : OperandKind} (shape : kind.shape = .contextNumber) (value : UInt32) :
      Opens kind [⟨.listed kind, .number32 value⟩] []
  | longNumber {kind : OperandKind} (shape : kind.shape = .contextNumber) (value : UInt64) :
      Opens kind [⟨.listed kind, .number64 value⟩] []
  | string {kind : OperandKind} (shape : kind.shape = .string) (text : Bytes) (nulFree : 0 ∉ text) :
      Opens kind [⟨.listed kind, .string text⟩] []
  | choice {kind : OperandKind} {enumerants : List Enumerant} {value : UInt32}
      {enumerant : Enumerant} (shape : kind.shape = .choice enumerants)
      (known : kind.enumerant? value = some enumerant) :
      Opens kind [⟨.listed kind, .enumerated value⟩] enumerant.parameters
  /-- Each set bit is known, and brings its parameters, the lowest bit first. -/
  | bits {kind : OperandKind} {enumerants chosen : List Enumerant} {value : UInt32}
      (shape : kind.shape = .bits enumerants)
      (known : List.Forall₂ (fun bit enumerant => kind.enumerant? bit = some enumerant)
        (OperandKind.setBits value) chosen) :
      Opens kind [⟨.listed kind, .enumerated value⟩] (chosen.flatMap Enumerant.parameters)
  | pair {kind first second : OperandKind} (shape : kind.shape = .pair first second) :
      Opens kind [] [first, second]

/-- One group of operands for each kind of a list, in order. -/
inductive Groups : List OperandKind → List Operand → Prop
  | nil : Groups [] []
  | cons {kind : OperandKind} {parts kinds : List OperandKind} {head inner later : List Operand}
      (opens : Opens kind head parts) (parameters : Groups parts inner)
      (others : Groups kinds later) :
      Groups (kind :: kinds) (head ++ inner ++ later)

/-- `Fills logicals resultType resultId operands`: the data of an instruction splits into one group
for each logical operand. An operand that may be absent ends the instruction where it is, and one
that repeats has any number of groups. -/
inductive Fills : List LogicalOperand → Option Word → Option Word → List Operand → Prop
  | done : Fills [] none none []
  | absent {logical : LogicalOperand} {later : List LogicalOperand}
      (optional : logical.quantifier ≠ .one) : Fills (logical :: later) none none []
  | resultType {quantifier : Quantifier} {later : List LogicalOperand} {resultId : Option Word}
      {operands : List Operand} (type : Word) (others : Fills later none resultId operands) :
      Fills (⟨.idResultType, quantifier⟩ :: later) (some type) resultId operands
  | resultId {quantifier : Quantifier} {later : List LogicalOperand} {resultType : Option Word}
      {operands : List Operand} (id : Word) (others : Fills later resultType none operands) :
      Fills (⟨.idResult, quantifier⟩ :: later) resultType (some id) operands
  | group {kind : OperandKind} {quantifier : Quantifier} {later : List LogicalOperand}
      {resultType resultId : Option Word} {first operands : List Operand}
      (notType : kind ≠ .idResultType) (notId : kind ≠ .idResult) (group : Groups [kind] first)
      (others : Fills later resultType resultId operands) :
      Fills (⟨kind, quantifier⟩ :: later) resultType resultId (first ++ operands)
  | another {kind : OperandKind} {later : List LogicalOperand} {resultType resultId : Option Word}
      {first operands : List Operand} (notType : kind ≠ .idResultType) (notId : kind ≠ .idResult)
      (group : Groups [kind] first)
      (others : Fills (⟨kind, .zeroOrMore⟩ :: later) resultType resultId operands) :
      Fills (⟨kind, .zeroOrMore⟩ :: later) resultType resultId (first ++ operands)

/-- The opcode is in the table, and the data fills the form it has there. -/
def Instruction.Conforms (inst : Instruction) : Prop :=
  ∃ form, InstructionForm.ofOpcode? inst.opcode = some form ∧
    Fills form.operands inst.resultType inst.resultId inst.operands

namespace Groups

theorem append {first second : List OperandKind} {front back : List Operand}
    (firstGroups : Groups first front) (secondGroups : Groups second back) :
    Groups (first ++ second) (front ++ back) := by
  induction firstGroups with
  | nil => exact secondGroups
  | cons opens parameters others _ inductionHypothesis =>
    rw [List.append_assoc]
    exact .cons opens parameters inductionHypothesis

theorem single_iff {kind : OperandKind} {operands : List Operand} :
    Groups [kind] operands ↔
      ∃ head parts inner, operands = head ++ inner ∧ Opens kind head parts ∧
        Groups parts inner := by
  constructor
  · rintro (_ | ⟨opens, parameters, others⟩)
    cases others
    exact ⟨_, _, _, List.append_nil _, opens, parameters⟩
  · rintro ⟨head, parts, inner, rfl, opens, parameters⟩
    simpa using Groups.cons opens parameters .nil

end Groups

namespace OperandKind

theorem enumerantsOf_eq_ok_iff {kind : OperandKind} {values : List UInt32}
    {chosen : List Enumerant} :
    kind.enumerantsOf values = .ok chosen ↔
      List.Forall₂ (fun value enumerant => kind.enumerant? value = some enumerant) values
        chosen := by
  induction values generalizing chosen with
  | nil => simp [enumerantsOf, eq_comm]
  | cons value values inductionHypothesis =>
    unfold enumerantsOf
    cases known : kind.enumerant? value with
    | none => simp [known, List.forall₂_cons_left_iff]
    | some enumerant =>
      simp only [known, List.forall₂_cons_left_iff, Option.some.injEq, ← inductionHypothesis]
      cases others : kind.enumerantsOf values with
      | ok enumerants => grind
      | error unknown => simp

theorem exists_of_enumerantsOf_eq_error {kind : OperandKind} {values : List UInt32}
    {unknown : UInt32} (failed : kind.enumerantsOf values = .error unknown) :
    kind.enumerant? unknown = none ∧ ∃ before behind, values = before ++ unknown :: behind ∧
      ∀ value ∈ before, kind.enumerant? value ≠ none := by
  induction values with
  | nil => cases failed
  | cons value values inductionHypothesis =>
    unfold enumerantsOf at failed
    split at failed
    · next isUnknown =>
      cases failed
      exact ⟨isUnknown, [], values, rfl, by simp⟩
    · next enumerant known =>
      split at failed
      · cases failed
      · next later rest =>
        cases failed
        obtain ⟨isUnknown, before, behind, rfl, beforeKnown⟩ := inductionHypothesis rest
        exact ⟨isUnknown, value :: before, behind, rfl, by simpa [known] using beforeKnown⟩

end OperandKind

namespace Opens

variable {kind part : OperandKind} {head : List Operand} {parts : List OperandKind}

theorem mem_parts (opens : Opens kind head parts) (isPart : part ∈ parts) :
    part ∈ kind.shape.members ∨ ∃ enumerant ∈ kind.enumerants, part ∈ enumerant.parameters := by
  cases opens with
  | choice shape known => exact .inr ⟨_, List.mem_of_find?_eq_some known, isPart⟩
  | bits shape known =>
    obtain ⟨enumerant, isChosen, isParameter⟩ := List.mem_flatMap.mp isPart
    have found := OperandKind.enumerantsOf_eq_ok_iff.mpr known
    exact .inr ⟨enumerant, OperandKind.mem_enumerants_of_enumerantsOf found isChosen, isParameter⟩
  | pair shape => exact .inl (by rwa [shape])
  | _ => cases isPart

theorem rank_lt_of_mem_parts (opens : Opens kind head parts) (isPart : part ∈ parts) :
    part.rank < kind.rank := by
  rcases opens.mem_parts isPart with isMember | ⟨enumerant, isEnumerant, isParameter⟩
  · exact OperandKind.rank_lt_of_mem_members isMember
  · exact OperandKind.rank_lt_of_mem_parameters isEnumerant isParameter

/-- No part of an operand is as wide as what is left of the instruction. -/
theorem shape_of_mem_parts (opens : Opens kind head parts) (isPart : part ∈ parts) :
    part.shape ≠ .contextNumber := by
  have members : ∀ kind ∈ OperandKind.all, ∀ member ∈ kind.shape.members,
      member.shape ≠ .contextNumber := by decide
  have parameters : ∀ kind ∈ OperandKind.all, ∀ enumerant ∈ kind.enumerants,
      ∀ parameter ∈ enumerant.parameters, parameter.shape ≠ .contextNumber := by decide +kernel
  rcases opens.mem_parts isPart with isMember | ⟨enumerant, isEnumerant, isParameter⟩
  · exact members kind kind.mem_all part isMember
  · exact parameters kind kind.mem_all enumerant isEnumerant part isParameter

theorem parts_of_contextNumber (opens : Opens kind head parts)
    (isContext : kind.shape = .contextNumber) : parts = [] := by
  cases opens <;> simp_all

end Opens

namespace LogicalOperand

/-- Whether an operand has a place of its own in an instruction. -/
def isResult (logical : LogicalOperand) : Bool :=
  logical.kind == .idResultType || logical.kind == .idResult

theorem isResult_eq_false_iff (logical : LogicalOperand) :
    logical.isResult = false ↔ logical.kind ≠ .idResultType ∧ logical.kind ≠ .idResult := by
  simp [isResult]

/-- Whether an operand takes all that is left of its instruction. -/
def isOpenEnded (logical : LogicalOperand) : Bool :=
  logical.quantifier == .zeroOrMore || logical.kind.shape == .contextNumber

end LogicalOperand

/-- Operands behind the results of an instruction: an open-ended one is the last. -/
def ClosedBody : List LogicalOperand → Prop
  | [] => True
  | logical :: later =>
    logical.isResult = false ∧ (logical.isOpenEnded = true → later = []) ∧
      (logical.kind.shape = .contextNumber → logical.quantifier = .one) ∧ ClosedBody later

instance decidableClosedBody : (logicals : List LogicalOperand) → Decidable (ClosedBody logicals)
  | [] => inferInstanceAs (Decidable True)
  | _ :: later =>
    have := decidableClosedBody later
    inferInstanceAs (Decidable (_ ∧ _ ∧ _ ∧ _))

theorem ClosedBody.isResult_eq_false {logicals : List LogicalOperand}
    (closed : ClosedBody logicals) :
    ∀ logical ∈ logicals, logical.isResult = false := by
  induction logicals with
  | nil => simp
  | cons logical later inductionHypothesis =>
    obtain ⟨isPlain, -, -, laterClosed⟩ := closed
    simpa [isPlain] using inductionHypothesis laterClosed

/-- A form starts with its results, and an open-ended operand ends it. -/
theorem exists_closedBody {form : InstructionForm} (listed : form ∈ InstructionForm.all) :
    ∃ results body, form.operands = results ++ body ∧ ClosedBody body ∧
      results ∈ [[], [InstructionForm.result], [InstructionForm.type, InstructionForm.result]] := by
  have every : ∀ form ∈ InstructionForm.all,
      ClosedBody (form.operands.dropWhile LogicalOperand.isResult) ∧
      form.operands.takeWhile LogicalOperand.isResult ∈
        [[], [InstructionForm.result], [InstructionForm.type, InstructionForm.result]] := by
    decide +kernel
  obtain ⟨closed, isListed⟩ := every form listed
  exact ⟨_, _, List.takeWhile_append_dropWhile.symm, closed, isListed⟩

namespace Fills

theorem none_of_closedBody {logicals : List LogicalOperand} {resultType resultId : Option Word}
    {operands : List Operand} (fills : Fills logicals resultType resultId operands)
    (closed : ClosedBody logicals) : resultType = none ∧ resultId = none := by
  induction fills with
  | done => exact ⟨rfl, rfl⟩
  | absent optional => exact ⟨rfl, rfl⟩
  | resultType type others inductionHypothesis => cases closed.1
  | resultId id others inductionHypothesis => cases closed.1
  | group notType notId group others inductionHypothesis =>
    exact inductionHypothesis closed.2.2.2
  | another notType notId group others inductionHypothesis => exact inductionHypothesis closed

theorem type_iff {logicals : List LogicalOperand} {resultType resultId : Option Word}
    {operands : List Operand} :
    Fills (InstructionForm.type :: logicals) resultType resultId operands ↔
      ∃ type, resultType = some type ∧ Fills logicals none resultId operands := by
  constructor
  · intro fills
    cases fills with
    | absent optional => exact (optional rfl).elim
    | resultType type others => exact ⟨type, rfl, others⟩
    | group notType => exact (notType rfl).elim
  · rintro ⟨type, rfl, others⟩
    exact .resultType type others

theorem result_iff {logicals : List LogicalOperand} {resultType resultId : Option Word}
    {operands : List Operand} :
    Fills (InstructionForm.result :: logicals) resultType resultId operands ↔
      ∃ id, resultId = some id ∧ Fills logicals resultType none operands := by
  constructor
  · intro fills
    cases fills with
    | absent optional => exact (optional rfl).elim
    | resultId id others => exact ⟨id, rfl, others⟩
    | group _ notId => exact (notId rfl).elim
  · rintro ⟨id, rfl, others⟩
    exact .resultId id others

/-- The results are there exactly where the form lists them. -/
theorem isSome_iff {form : InstructionForm} {resultType resultId : Option Word}
    {operands : List Operand} (listed : form ∈ InstructionForm.all)
    (fills : Fills form.operands resultType resultId operands) :
    (resultType.isSome ↔ ∃ logical ∈ form.operands, logical.kind = .idResultType) ∧
      (resultId.isSome ↔ ∃ logical ∈ form.operands, logical.kind = .idResult) := by
  obtain ⟨results, body, split, closed, isResults⟩ := exists_closedBody listed
  have plain (logical : LogicalOperand) (isIn : logical ∈ body) :
      logical.kind ≠ .idResultType ∧ logical.kind ≠ .idResult :=
    logical.isResult_eq_false_iff.mp (closed.isResult_eq_false logical isIn)
  rw [split] at fills ⊢
  simp only [List.mem_cons, List.not_mem_nil, or_false] at isResults
  rcases isResults with rfl | rfl | rfl
  · obtain ⟨rfl, rfl⟩ := fills.none_of_closedBody closed
    simp_all
  · obtain ⟨id, rfl, others⟩ := result_iff.mp fills
    obtain ⟨rfl, -⟩ := others.none_of_closedBody closed
    simp_all [InstructionForm.result, InstructionForm.one]
  · obtain ⟨type, rfl, others⟩ := type_iff.mp fills
    obtain ⟨id, rfl, -⟩ := result_iff.mp others
    simp [InstructionForm.type, InstructionForm.result, InstructionForm.one]

end Fills

end SpirvInspector
