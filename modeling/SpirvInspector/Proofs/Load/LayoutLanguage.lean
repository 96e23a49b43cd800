import Mathlib.Computability.Language
import SpirvInspector.Proofs.Load.Conservation

/-!
# The language of layouts

The opcodes of functions form a regular language. What a loader may still be given is a language
too, one for each state of the open function: the remainder of a function, and any number of
functions behind it. An instruction takes the loader from one of these languages to its derivative.
-/

set_option autoImplicit false

namespace SpirvInspector

open Opcode
open scoped Computability

namespace Opcode

/-- Whether an opcode stands in the middle of a block, if it is part of a function. -/
def isInner (opcode : Opcode) : Bool :=
  opcode ∉ [opFunction, opFunctionEnd, opFunctionParameter, opLabel] && !opcode.isTerminator

theorem isInner_eq (opcode : Opcode) : opcode.isInner = opcode.placement.isInner := by
  cases inner : opcode.isInner
  · have isOther : opcode ∈ [opFunction, opFunctionEnd, opFunctionParameter, opLabel] ∨
        opcode.isTerminator = true := by
      simpa only [isInner, Bool.and_eq_false_iff, decide_eq_false_iff_not, not_not,
        Bool.not_eq_false'] using inner
    rcases isOther with isPart | terminates
    · simp only [List.mem_cons, List.not_mem_nil, or_false] at isPart
      rcases isPart with rfl | rfl | rfl | rfl <;> rfl
    · have placed : opcode.placement = .terminator :=
        placement_of_covers terminates Placement.noConfusion
      rw [placed]
      rfl
  · have covers := opcode.covers_placement
    cases placed : opcode.placement <;> rw [placed] at covers
    case function | functionEnd | functionParameter | label =>
      cases covers
      cases inner
    case terminator =>
      rw [isInner, show opcode.isTerminator = true from covers] at inner
      simp at inner
    all_goals rfl

end Opcode

/-- The words of one letter. -/
def letter (isLetter : Opcode → Prop) : Language Opcode :=
  {word | ∃ opcode, isLetter opcode ∧ word = [opcode]}

/-- A label, instructions inside the block, and the terminator. -/
def blockLanguage : Language Opcode :=
  letter (· = opLabel) * (letter (·.isInner))∗ * letter (·.isTerminator)

/-- A definition, parameters, blocks, and the end. -/
def functionLanguage : Language Opcode :=
  letter (· = opFunction) * (letter (· = opFunctionParameter))∗ * blockLanguage∗ *
    letter (· = opFunctionEnd)

def layoutLanguage : Language Opcode :=
  functionLanguage∗

section Letters

variable {isLetter : Opcode → Prop} {opcode : Opcode} {word : List Opcode}
  {language : Language Opcode}

theorem nil_notMem_letter_mul : [] ∉ letter isLetter * language := by
  rintro ⟨front, ⟨opcode, -, rfl⟩, back, -, joined⟩
  cases joined

theorem cons_mem_letter_mul :
    opcode :: word ∈ letter isLetter * language ↔ isLetter opcode ∧ word ∈ language := by
  constructor
  · rintro ⟨front, ⟨first, isFirst, rfl⟩, back, isBack, joined⟩
    cases joined
    exact ⟨isFirst, isBack⟩
  · rintro ⟨isFirst, isRest⟩
    exact ⟨[opcode], ⟨opcode, isFirst, rfl⟩, word, isRest, rfl⟩

theorem kstar_mul (repeated language : Language Opcode) :
    repeated∗ * language = repeated * (repeated∗ * language) + language := by
  calc repeated∗ * language
      = (1 + repeated * repeated∗) * language := by rw [Language.one_add_self_mul_kstar_eq_kstar]
    _ = repeated * (repeated∗ * language) + language := by
      rw [add_mul, one_mul, mul_assoc, add_comm]

end Letters

/-- What may follow the closed blocks of a function. -/
def behindBlocks : Language Opcode :=
  blockLanguage∗ * (letter (· = opFunctionEnd) * layoutLanguage)

def behindParameters : Language Opcode :=
  (letter (· = opFunctionParameter))∗ * behindBlocks

def inBlock : Language Opcode :=
  (letter (·.isInner))∗ * (letter (·.isTerminator) * behindBlocks)

theorem layoutLanguage_eq :
    layoutLanguage = letter (· = opFunction) * behindParameters + 1 := by
  calc layoutLanguage
      = functionLanguage * layoutLanguage + 1 := by
        rw [add_comm]
        exact (Language.one_add_self_mul_kstar_eq_kstar functionLanguage).symm
    _ = letter (· = opFunction) * behindParameters + 1 := by
        simp only [functionLanguage, behindParameters, behindBlocks, mul_assoc]

theorem behindParameters_eq :
    behindParameters = letter (· = opFunctionParameter) * behindParameters + behindBlocks :=
  kstar_mul _ _

theorem behindBlocks_eq :
    behindBlocks =
      letter (· = opLabel) * inBlock + letter (· = opFunctionEnd) * layoutLanguage := by
  calc behindBlocks
      = blockLanguage * behindBlocks + letter (· = opFunctionEnd) * layoutLanguage :=
        kstar_mul _ _
    _ = letter (· = opLabel) * inBlock + letter (· = opFunctionEnd) * layoutLanguage := by
        simp only [blockLanguage, inBlock, mul_assoc]

theorem inBlock_eq :
    inBlock = letter (·.isInner) * inBlock + letter (·.isTerminator) * behindBlocks :=
  kstar_mul _ _

section Membership

variable {opcode : Opcode} {word : List Opcode}

theorem nil_mem_layoutLanguage : [] ∈ layoutLanguage :=
  Language.nil_mem_kstar functionLanguage

theorem nil_notMem_behindBlocks : [] ∉ behindBlocks := by
  rw [behindBlocks_eq, Language.mem_add]
  exact not_or_intro nil_notMem_letter_mul nil_notMem_letter_mul

theorem nil_notMem_behindParameters : [] ∉ behindParameters := by
  rw [behindParameters_eq, Language.mem_add]
  exact not_or_intro nil_notMem_letter_mul nil_notMem_behindBlocks

theorem nil_notMem_inBlock : [] ∉ inBlock := by
  rw [inBlock_eq, Language.mem_add]
  exact not_or_intro nil_notMem_letter_mul nil_notMem_letter_mul

theorem cons_mem_layoutLanguage :
    opcode :: word ∈ layoutLanguage ↔
      opcode.placement = .function ∧ word ∈ behindParameters := by
  rw [layoutLanguage_eq, Language.mem_add, cons_mem_letter_mul, Language.mem_one,
    placement_eq_iff Placement.noConfusion]
  simp [Placement.Covers]

theorem cons_mem_behindParameters :
    opcode :: word ∈ behindParameters ↔
      (opcode.placement = .functionParameter ∧ word ∈ behindParameters) ∨
        opcode :: word ∈ behindBlocks := by
  conv => lhs; rw [behindParameters_eq]
  rw [Language.mem_add, cons_mem_letter_mul, placement_eq_iff Placement.noConfusion]
  rfl

theorem cons_mem_behindBlocks :
    opcode :: word ∈ behindBlocks ↔
      (opcode.placement = .label ∧ word ∈ inBlock) ∨
        (opcode.placement = .functionEnd ∧ word ∈ layoutLanguage) := by
  rw [behindBlocks_eq, Language.mem_add, cons_mem_letter_mul, cons_mem_letter_mul,
    placement_eq_iff Placement.noConfusion, placement_eq_iff Placement.noConfusion]
  rfl

theorem cons_mem_inBlock :
    opcode :: word ∈ inBlock ↔
      (opcode.placement.isInner = true ∧ word ∈ inBlock) ∨
        (opcode.placement = .terminator ∧ word ∈ behindBlocks) := by
  conv => lhs; rw [inBlock_eq]
  rw [Language.mem_add, cons_mem_letter_mul, cons_mem_letter_mul, isInner_eq,
    placement_eq_iff Placement.noConfusion]
  rfl

end Membership

namespace Loader

/-- What a loader may still be given, as far as functions go. -/
def ahead : Option OpenFunction → Language Opcode
  | none => layoutLanguage
  | some ⟨_, _, _, some _⟩ => inBlock
  | some ⟨_, _, blocks, none⟩ => if blocks = #[] then behindParameters else behindBlocks

theorem nil_mem_ahead_iff {current : Option OpenFunction} :
    [] ∈ ahead current ↔ current = none := by
  rcases current with _ | ⟨definition, parameters, blocks, _ | block⟩
  · simp [ahead, nil_mem_layoutLanguage]
  · by_cases blockless : blocks = #[]
    · simp [ahead, blockless, nil_notMem_behindParameters]
    · simp [ahead, blockless, nil_notMem_behindBlocks]
  · simp [ahead, nil_notMem_inBlock]

variable {inst : Instruction} {current next : Option OpenFunction} {closed : Option Function}
  {word : List Opcode}

theorem cons_mem_ahead_of_grows (grows : Grows inst current closed next) :
    inst.opcode :: word ∈ ahead current ↔ word ∈ ahead next := by
  cases grows with
  | opens placed => simp [ahead, cons_mem_layoutLanguage, placed]
  | @closes definition parameters blocks placed =>
    by_cases blockless : blocks = #[] <;>
      simp [ahead, blockless, cons_mem_behindParameters, cons_mem_behindBlocks, placed]
  | parameter placed =>
    simp [ahead, cons_mem_behindParameters, cons_mem_behindBlocks, placed]
  | @label definition parameters blocks placed =>
    by_cases blockless : blocks = #[] <;>
      simp [ahead, blockless, cons_mem_behindParameters, cons_mem_behindBlocks, placed]
  | inner isInner =>
    have notTerminator := Placement.ne_terminator_of_isInner isInner
    simp [ahead, cons_mem_inBlock, isInner, notTerminator]
  | terminator placed => simp [ahead, cons_mem_inBlock, placed, Placement.isInner]

theorem exists_grows_of_mem_ahead (isAhead : inst.opcode :: word ∈ ahead current) :
    ∃ closed next, Grows inst current closed next := by
  rcases current with _ | ⟨definition, parameters, blocks, _ | ⟨label, body⟩⟩
  · exact ⟨_, _, .opens (cons_mem_layoutLanguage.mp isAhead).1⟩
  · have behind : (blocks = #[] ∧ inst.opcode.placement = .functionParameter) ∨
        inst.opcode :: word ∈ behindBlocks := by
      by_cases blockless : blocks = #[]
      · rw [ahead, if_pos blockless, cons_mem_behindParameters] at isAhead
        exact isAhead.imp_left fun isParameter => ⟨blockless, isParameter.1⟩
      · rw [ahead, if_neg blockless] at isAhead
        exact .inr isAhead
    rcases behind with ⟨rfl, placed⟩ | isBehind
    · exact ⟨_, _, .parameter placed⟩
    · rcases cons_mem_behindBlocks.mp isBehind with ⟨placed, -⟩ | ⟨placed, -⟩
      · exact ⟨_, _, .label placed⟩
      · exact ⟨_, _, .closes placed⟩
  · rcases cons_mem_inBlock.mp isAhead with ⟨isInner, -⟩ | ⟨placed, -⟩
    · exact ⟨_, _, .inner isInner⟩
    · exact ⟨_, _, .terminator placed⟩

/-- `Awaits loader insts`: the layout has room for the instructions, and is complete behind them. -/
structure Awaits (loader : Loader) (insts : List Instruction) : Prop where
  memoryModels : loader.shelf.memoryModel.toList.length +
    insts.countP (·.opcode == opMemoryModel) ≤ 1
  functions : (functionParts loader.current.isSome insts).map (·.opcode) ∈ ahead loader.current

theorem awaits_nil_iff {loader : Loader} : Awaits loader [] ↔ loader.current = none := by
  constructor
  · intro awaits
    exact nil_mem_ahead_iff.mp awaits.functions
  · intro isClosed
    refine ⟨?_, nil_mem_ahead_iff.mpr isClosed⟩
    cases loader.shelf.memoryModel <;> simp

theorem awaits_cons_iff_of_filing {loader : Loader} {filed : Module} {later : List Instruction}
    (filing : Filing (loader.noted inst).shelf loader.current inst filed next) :
    Awaits loader (inst :: later) ↔ Awaits ⟨loader.limit, filed, next⟩ later := by
  -- A memory model moves from those to come to the one that is held, which leaves the sum alone.
  have memoryModels : filed.memoryModel.toList.length +
      later.countP (·.opcode == opMemoryModel) =
        loader.shelf.memoryModel.toList.length +
          (inst :: later).countP (·.opcode == opMemoryModel) := by
    have held : filed.memoryModel.toList = loader.shelf.memoryModel.toList ++
        if inst.opcode == opMemoryModel then [inst] else [] := by
      have contents := filing.contents .memoryModel
      rw [Section.selection_singleton] at contents
      exact contents
    rw [held, List.length_append, List.countP_cons]
    split
    · rw [List.length_singleton]
      omega
    · rfl
  have functions :
      (functionParts loader.current.isSome (inst :: later)).map (·.opcode) ∈ ahead loader.current ↔
        (functionParts next.isSome later).map (·.opcode) ∈ ahead next := by
    cases filing with
    | filed wanted room => rw [functionParts_of_wants wanted]
    | grown unwanted grows =>
      rw [functionParts_of_unwanted unwanted, List.map_cons, cons_mem_ahead_of_grows grows,
        grows.isSome]
  constructor
  · intro awaits
    exact ⟨memoryModels ▸ awaits.memoryModels, functions.mp awaits.functions⟩
  · intro awaits
    exact ⟨memoryModels ▸ awaits.memoryModels, functions.mpr awaits.functions⟩

theorem exists_filing_of_awaits {loader : Loader} {later : List Instruction}
    (awaits : Awaits loader (inst :: later)) :
    ∃ filed next, Filing (loader.noted inst).shelf loader.current inst filed next := by
  by_cases wanted : ∃ part : Section, part.wants loader.current.isSome inst.opcode = true
  · obtain ⟨part, wanted⟩ := wanted
    refine ⟨_, _, .filed wanted ?_⟩
    rintro rfl
    change loader.shelf.memoryModel = none
    have fits := awaits.memoryModels
    have isMemoryModel : (inst.opcode == opMemoryModel) = true := wanted
    rw [List.countP_cons, if_pos isMemoryModel] at fits
    cases present : loader.shelf.memoryModel with
    | none => rfl
    | some other =>
      rw [present, Option.toList_some, List.length_singleton] at fits
      omega
  · simp only [not_exists, Bool.not_eq_true] at wanted
    have isAhead := awaits.functions
    rw [functionParts_of_unwanted wanted] at isAhead
    obtain ⟨closed, next, grows⟩ := exists_grows_of_mem_ahead isAhead
    exact ⟨_, _, .grown wanted grows⟩

theorem finish_proceeds_iff (loader : Loader) :
    loader.finish.1 = .proceed ↔ loader.current = none := by
  rcases loader with ⟨limit, shelf, _ | ⟨definition, parameters, blocks, _ | block⟩⟩ <;>
    simp [finish, unclosed?]

/-- A loader without a limit accepts what it awaits. -/
theorem accepts_iff_awaits {loader : Loader} (unlimited : loader.limit = 0)
    (entries : List Framed) :
    (∀ call ∈ (sink.callAll (entries.map Framed.event ++ [.finish]) loader).1,
      call.answer = .proceed) ↔ Awaits loader (entries.map Prod.snd) := by
  induction entries generalizing loader with
  | nil =>
    change _ ↔ Awaits loader []
    rw [awaits_nil_iff, ← finish_proceeds_iff]
    simp [Sink.callAll, sink, receive]
  | cons entry later inductionHypothesis =>
    have answers : (∀ call ∈ (sink.callAll ((entry :: later).map Framed.event ++ [.finish])
        loader).1, call.answer = .proceed) ↔
        (loader.add entry.2).1 = .proceed ∧
          ∀ call ∈ (sink.callAll (later.map Framed.event ++ [.finish]) (loader.add entry.2).2).1,
            call.answer = .proceed := List.forall_mem_cons
    rw [answers, List.map_cons]
    have added := loader.add_added entry.2
    generalize (loader.add entry.2).1 = answer at added
    generalize (loader.add entry.2).2 = after at added
    cases added with
    | stopped full => exact (Nat.ne_of_gt full.1 unlimited).elim
    | refused room refused =>
      apply iff_of_false
      · rintro ⟨proceeds, -⟩
        cases proceeds
      · intro awaits
        obtain ⟨filed, next, filing⟩ := exists_filing_of_awaits awaits
        exact refused filed next filing
    | @placed filed next room filing =>
      have behind := @inductionHypothesis ⟨loader.limit, filed, next⟩ unlimited
      rw [behind, awaits_cons_iff_of_filing filing]
      exact and_iff_right rfl

end Loader

/-- The opcodes that are left when the instructions at the level of the module are removed. -/
def residue (insts : List Instruction) : List Opcode :=
  (functionParts false insts).map (·.opcode)

/-- A loader without a limit accepts a stream, and its end, if and only if there is at most one
memory model and the opcodes of the functions are in the language of layouts. -/
theorem accepts_iff_mem_layoutLanguage (m : Module) (entries : List Framed) :
    (∀ call ∈ (Loader.sink.callAll (.start :: (entries.map Framed.event ++ [.finish]))
        (.ofModule m 0)).1, call.answer = .proceed) ↔
      (entries.map Prod.snd).countP (·.opcode == opMemoryModel) ≤ 1 ∧
        residue (entries.map Prod.snd) ∈ layoutLanguage := by
  have answers : (∀ call ∈ (Loader.sink.callAll (.start :: (entries.map Framed.event ++ [.finish]))
      (.ofModule m 0)).1, call.answer = .proceed) ↔
      Answer.proceed = .proceed ∧
        ∀ call ∈ (Loader.sink.callAll (entries.map Framed.event ++ [.finish]) (.ofModule {} 0)).1,
          call.answer = .proceed := List.forall_mem_cons
  rw [answers, Loader.accepts_iff_awaits rfl]
  constructor
  · rintro ⟨-, awaits⟩
    exact ⟨by simpa [Loader.ofModule] using awaits.memoryModels, awaits.functions⟩
  · rintro ⟨memoryModels, functions⟩
    exact ⟨rfl, by simpa [Loader.ofModule] using memoryModels, functions⟩

end SpirvInspector
