import SpirvInspector.Load.Loader

/-!
# Sections of the logical layout

Which instructions a section wants is said here section by section, by opcode and by whether a
function is open. No two sections want the same instruction, and what none of them wants is part of
a function. The placement of an opcode decides about both.
-/

set_option autoImplicit false

namespace SpirvInspector

open Opcode

/-- `placement.Covers opcode`: the opcodes of a placement, each class in its own words. -/
def Placement.Covers : Placement → Opcode → Prop
  | .capability, opcode => opcode = opCapability
  | .extension, opcode => opcode = opExtension
  | .extInstImport, opcode => opcode = opExtInstImport
  | .memoryModel, opcode => opcode = opMemoryModel
  | .entryPoint, opcode => opcode = opEntryPoint
  | .executionMode, opcode => opcode = opExecutionMode ∨ opcode = opExecutionModeId
  | .debug, opcode => opcode.isDebug
  | .decoration, opcode => opcode.isDecoration
  | .global, opcode => opcode.isType ∨ opcode.isConstant
  | .scoped, opcode => opcode.isScoped
  | .function, opcode => opcode = opFunction
  | .functionParameter, opcode => opcode = opFunctionParameter
  | .functionEnd, opcode => opcode = opFunctionEnd
  | .label, opcode => opcode = opLabel
  | .terminator, opcode => opcode.isTerminator
  | .body, _ => True

namespace Opcode

theorem covers_placement (opcode : Opcode) : opcode.placement.Covers opcode := by
  unfold placement
  iterate 15 refine iteInduction (motive := (Placement.Covers · opcode)) id fun _ => ?_
  trivial

theorem placement_of_global {opcode : Opcode} (isGlobal : opcode.isType ∨ opcode.isConstant) :
    opcode.placement = .global := by
  by_cases isPipe : opcode = opTypePipeStorage
  · subst isPipe
    rfl
  · -- All other types and constants are among the first 53 opcodes.
    have small : opcode.toNat < 53 := by
      simp only [isType, isConstant, Bool.or_eq_true, Bool.and_eq_true, decide_eq_true_eq,
        beq_iff_eq, isPipe, or_false] at isGlobal
      rcases isGlobal with ⟨-, below⟩ | ⟨-, below⟩
      · exact Nat.lt_of_le_of_lt below (by decide)
      · exact Nat.lt_of_le_of_lt below (by decide)
    have table : ∀ n < 53, isType (.ofNat n) ∨ isConstant (.ofNat n) →
        placement (.ofNat n) = .global := by decide
    simpa using table opcode.toNat small (by simpa using isGlobal)

theorem placement_of_mem {placement : Placement} {opcodes : List Opcode} {opcode : Opcode}
    (placed : opcodes.all (·.placement = placement) = true) (isIn : opcode ∈ opcodes) :
    opcode.placement = placement :=
  of_decide_eq_true (List.all_eq_true.mp placed opcode isIn)

theorem placement_of_covers {placement : Placement} {opcode : Opcode}
    (covers : placement.Covers opcode) (notBody : placement ≠ .body) :
    opcode.placement = placement := by
  cases placement
  case body => exact (notBody rfl).elim
  case global => exact placement_of_global covers
  case executionMode => rcases covers with rfl | rfl <;> rfl
  case debug | decoration | «scoped» | terminator =>
    exact placement_of_mem (by decide) (of_decide_eq_true covers)
  all_goals
    cases covers
    rfl

theorem placement_eq_iff {placement : Placement} {opcode : Opcode} (notBody : placement ≠ .body) :
    opcode.placement = placement ↔ placement.Covers opcode := by
  constructor
  · rintro rfl
    exact opcode.covers_placement
  · intro covers
    exact placement_of_covers covers notBody

end Opcode

/-- A section of the layout. -/
inductive Section
  | capabilities
  | extensions
  | imports
  | memoryModel
  | entryPoints
  | executionModes
  | debugs
  | annotations
  | globals
deriving DecidableEq, Repr

namespace Section

def all : List Section :=
  [capabilities, extensions, imports, memoryModel, entryPoints, executionModes, debugs,
   annotations, globals]

theorem mem_all (part : Section) : part ∈ all := by
  cases part <;> decide

/-- Whether a section wants the instructions with an opcode, where a function is `opened` or not. -/
def wants (opened : Bool) (opcode : Opcode) : Section → Bool
  | capabilities => opcode == opCapability
  | extensions => opcode == opExtension
  | imports => opcode == opExtInstImport
  | memoryModel => opcode == opMemoryModel
  | entryPoints => opcode == opEntryPoint
  | executionModes => opcode == opExecutionMode || opcode == opExecutionModeId
  | debugs => opcode.isDebug
  | annotations => opcode.isDecoration
  | globals => opcode.isType || opcode.isConstant || (opcode.isScoped && !opened)

/-- The instructions that a module holds in a section. -/
def contents (m : Module) : Section → List Instruction
  | capabilities => m.capabilities.toList
  | extensions => m.extensions.toList
  | imports => m.imports.toList
  | memoryModel => m.memoryModel.toList
  | entryPoints => m.entryPoints.toList
  | executionModes => m.executionModes.toList
  | debugs => m.debugs.toList
  | annotations => m.annotations.toList
  | globals => m.globals.toList

/-- The placement whose opcodes a section wants, wherever they stand. -/
def placement : Section → Placement
  | capabilities => .capability
  | extensions => .extension
  | imports => .extInstImport
  | memoryModel => .memoryModel
  | entryPoints => .entryPoint
  | executionModes => .executionMode
  | debugs => .debug
  | annotations => .decoration
  | globals => .global

theorem wants_iff {part : Section} {opened : Bool} {opcode : Opcode} :
    part.wants opened opcode = true ↔
      opcode.placement = part.placement ∨
        (part = globals ∧ opened = false ∧ opcode.placement = .scoped) := by
  have notBody : part.placement ≠ .body := by
    cases part <;> exact Placement.noConfusion
  have scopedIff : opcode.placement = .scoped ↔ opcode.isScoped = true :=
    placement_eq_iff Placement.noConfusion
  rw [placement_eq_iff notBody, scopedIff]
  cases part <;> simp [wants, placement, Placement.Covers, and_comm]

theorem eq_of_wants {part other : Section} {opened : Bool} {opcode : Opcode}
    (wanted : part.wants opened opcode = true) (alsoWanted : other.wants opened opcode = true) :
    part = other := by
  rw [wants_iff] at wanted alsoWanted
  cases part <;> cases other <;> simp_all [placement]

/-- Puts an instruction into a section of a module. -/
def file (inst : Instruction) (m : Module) : Section → Module
  | capabilities => { m with capabilities := m.capabilities.push inst }
  | extensions => { m with extensions := m.extensions.push inst }
  | imports => { m with imports := m.imports.push inst }
  | memoryModel => { m with memoryModel := some inst }
  | entryPoints => { m with entryPoints := m.entryPoints.push inst }
  | executionModes => { m with executionModes := m.executionModes.push inst }
  | debugs => { m with debugs := m.debugs.push inst }
  | annotations => { m with annotations := m.annotations.push inst }
  | globals => { m with globals := m.globals.push inst }

@[simp] theorem instructions_file (inst : Instruction) (m : Module) (part : Section) :
    (part.file inst m).instructions = m.instructions := by
  cases part <;> rfl

@[simp] theorem functions_file (inst : Instruction) (m : Module) (part : Section) :
    (part.file inst m).functions = m.functions := by
  cases part <;> rfl

/-- There is room for an instruction, unless it is a second memory model. -/
def HasRoom (m : Module) (part : Section) : Prop :=
  part = memoryModel → m.memoryModel = none

theorem contents_file {inst : Instruction} {m : Module} {part : Section}
    (room : part.HasRoom m) (other : Section) :
    other.contents (part.file inst m) =
      other.contents m ++ if other = part then [inst] else [] := by
  cases part <;> cases other <;> simp_all [contents, file, HasRoom]

end Section

namespace Opcode

/-- Whether a function is open behind an opcode, given whether one is open in front of it. -/
def leavesOpen (opcode : Opcode) (opened : Bool) : Bool :=
  if opcode = opFunction then true
  else if opcode = opFunctionEnd then false
  else opened

theorem leavesOpen_eq (opcode : Opcode) (opened : Bool) :
    opcode.leavesOpen opened =
      match opcode.placement with
      | .function => true
      | .functionEnd => false
      | _ => opened := by
  by_cases isFunction : opcode = opFunction
  · subst isFunction
    rfl
  · by_cases isEnd : opcode = opFunctionEnd
    · subst isEnd
      rfl
    · rw [leavesOpen, if_neg isFunction, if_neg isEnd]
      split
      · next placed => exact (isFunction ((placement_eq_iff Placement.noConfusion).mp placed)).elim
      · next placed => exact (isEnd ((placement_eq_iff Placement.noConfusion).mp placed)).elim
      · rfl

end Opcode

theorem Section.leavesOpen_of_wants {part : Section} {opened : Bool} {opcode : Opcode}
    (wanted : part.wants opened opcode = true) : opcode.leavesOpen opened = opened := by
  rw [leavesOpen_eq]
  rcases wants_iff.mp wanted with placed | ⟨-, -, placed⟩
  · cases part <;> rw [placed] <;> rfl
  · rw [placed]

/-- Whether a function is open behind instructions. -/
def leftOpen : Bool → List Instruction → Bool
  | opened, [] => opened
  | opened, inst :: later => leftOpen (inst.opcode.leavesOpen opened) later

/-- The instructions, each with whether a function is open where it stands. -/
def inScope : Bool → List Instruction → List (Bool × Instruction)
  | _, [] => []
  | opened, inst :: later => (opened, inst) :: inScope (inst.opcode.leavesOpen opened) later

/-- The instructions that a section wants, in the order of the stream. -/
def Section.selection (part : Section) (opened : Bool) (insts : List Instruction) :
    List Instruction :=
  ((inScope opened insts).filter fun entry => part.wants entry.1 entry.2.opcode).map Prod.snd

/-- The instructions that no section wants, in the order of the stream. -/
def functionParts (opened : Bool) (insts : List Instruction) : List Instruction :=
  ((inScope opened insts).filter fun entry =>
    Section.all.all fun part => !part.wants entry.1 entry.2.opcode).map Prod.snd

theorem leftOpen_append (opened : Bool) (front back : List Instruction) :
    leftOpen opened (front ++ back) = leftOpen (leftOpen opened front) back := by
  induction front generalizing opened with
  | nil => rfl
  | cons inst front inductionHypothesis => exact inductionHypothesis _

theorem inScope_append (opened : Bool) (front back : List Instruction) :
    inScope opened (front ++ back) =
      inScope opened front ++ inScope (leftOpen opened front) back := by
  induction front generalizing opened with
  | nil => rfl
  | cons inst front inductionHypothesis => exact congrArg _ (inductionHypothesis _)

theorem Section.selection_append (part : Section) (opened : Bool) (front back : List Instruction) :
    part.selection opened (front ++ back) =
      part.selection opened front ++ part.selection (leftOpen opened front) back := by
  simp [selection, inScope_append]

theorem functionParts_append (opened : Bool) (front back : List Instruction) :
    functionParts opened (front ++ back) =
      functionParts opened front ++ functionParts (leftOpen opened front) back := by
  simp [functionParts, inScope_append]

theorem Section.selection_singleton (part : Section) (opened : Bool) (inst : Instruction) :
    part.selection opened [inst] = if part.wants opened inst.opcode then [inst] else [] := by
  cases wanted : part.wants opened inst.opcode <;> simp [selection, inScope, wanted]

theorem functionParts_of_wants {part : Section} {opened : Bool} {inst : Instruction}
    (wanted : part.wants opened inst.opcode = true) (later : List Instruction) :
    functionParts opened (inst :: later) = functionParts opened later := by
  have isWanted : (Section.all.all fun part => !part.wants opened inst.opcode) = false := by
    rw [List.all_eq_false]
    exact ⟨part, part.mem_all, by simp [wanted]⟩
  simp [functionParts, inScope, isWanted, Section.leavesOpen_of_wants wanted]

theorem functionParts_of_unwanted {opened : Bool} {inst : Instruction}
    (unwanted : ∀ part : Section, part.wants opened inst.opcode = false)
    (later : List Instruction) :
    functionParts opened (inst :: later) =
      inst :: functionParts (inst.opcode.leavesOpen opened) later := by
  simp [functionParts, inScope, unwanted]

/-- An instruction belongs to exactly one section, or else it is part of a function. -/
theorem selections_singleton (opened : Bool) (inst : Instruction) :
    Section.all.flatMap (·.selection opened [inst]) ++ functionParts opened [inst] = [inst] := by
  by_cases wanted : ∃ part : Section, part.wants opened inst.opcode = true
  · obtain ⟨part, wanted⟩ := wanted
    have only (other : Section) : other.wants opened inst.opcode = decide (other = part) := by
      rw [Bool.eq_iff_iff, decide_eq_true_iff]
      constructor
      · intro alsoWanted
        exact Section.eq_of_wants alsoWanted wanted
      · rintro rfl
        exact wanted
    rw [functionParts_of_wants wanted]
    cases part <;>
      simp [Section.all, Section.selection_singleton, only, functionParts, inScope]
  · simp only [not_exists, Bool.not_eq_true] at wanted
    rw [functionParts_of_unwanted wanted]
    simp [Section.selection_singleton, wanted, functionParts, inScope]

end SpirvInspector
