import Mathlib.Data.List.Perm.Basic
import SpirvInspector.Proofs.Load.Filing
import SpirvInspector.Proofs.Parse.Observers

/-!
# Loading loses and reorders nothing

Each section of a loaded module is the subsequence of the instructions that it wants, and the
functions, written out one after the other, are the subsequence of all others. So the layout is the
stream in another order.
-/

set_option autoImplicit false

namespace SpirvInspector

open Opcode

/-- The instructions of the functions of a module, one function after the other. -/
def Module.inFunctions (m : Module) : List Instruction :=
  m.functions.toList.flatMap Function.instructions

theorem Module.inLayout_eq (m : Module) :
    m.inLayout = Section.all.flatMap (·.contents m) ++ m.inFunctions := by
  simp [inLayout, sections, inFunctions, Section.all, Section.contents]

namespace Loader

/-- The instructions of the open function. -/
def inOpenFunction (current : Option OpenFunction) : List Instruction :=
  current.toList.flatMap fun function => (function.close none).instructions

theorem inFunctions_module (loader : Loader) :
    loader.module.inFunctions = loader.shelf.inFunctions ++ inOpenFunction loader.current := by
  cases current : loader.current <;>
    simp [Loader.module, current, Module.inFunctions, inOpenFunction]

theorem contents_module (loader : Loader) (part : Section) :
    part.contents loader.module = part.contents loader.shelf := by
  cases current : loader.current <;> cases part <;> simp [Loader.module, current, Section.contents]

/-- An instruction that is only noted is one of the stream, and the layout stays as it is. -/
theorem module_noted (loader : Loader) (inst : Instruction) :
    (loader.noted inst).module =
      { loader.module with instructions := loader.module.instructions.push inst } := by
  rcases loader with ⟨limit, shelf, _ | function⟩ <;> rfl

theorem instructions_module (loader : Loader) :
    loader.module.instructions = loader.shelf.instructions := by
  cases current : loader.current <;> simp [Loader.module, current]

end Loader

namespace Grows

variable {inst : Instruction} {current next : Option OpenFunction} {closed : Option Function}

/-- The instruction stands behind those that the function had, whether it is closed now or not. -/
theorem inOpenFunction (grows : Grows inst current closed next) :
    closed.toList.flatMap Function.instructions ++ Loader.inOpenFunction next =
      Loader.inOpenFunction current ++ [inst] := by
  cases grows <;>
    simp [Loader.inOpenFunction, OpenFunction.close, Function.instructions, Block.instructions]

theorem isSome (grows : Grows inst current closed next) :
    next.isSome = inst.opcode.leavesOpen current.isSome := by
  rw [Opcode.leavesOpen_eq]
  cases grows with
  | opens placed | closes placed | parameter placed | label placed | terminator placed =>
    rw [placed]
    rfl
  | inner isInner =>
    cases placed : inst.opcode.placement <;> rw [placed] at isInner <;> first | rfl | cases isInner

end Grows

namespace Loader

/-- `Extends loader insts final`: the loader has taken in instructions and nothing else. -/
structure Extends (loader : Loader) (insts : List Instruction) (final : Loader) : Prop where
  instructions : final.module.instructions.toList = loader.module.instructions.toList ++ insts
  sections : ∀ part : Section, part.contents final.module =
    part.contents loader.module ++ part.selection loader.current.isSome insts
  functions : final.module.inFunctions =
    loader.module.inFunctions ++ functionParts loader.current.isSome insts
  opened : final.current.isSome = leftOpen loader.current.isSome insts
  layout : final.module.inLayout.Perm (loader.module.inLayout ++ insts)

namespace Extends

theorem refl (loader : Loader) : Extends loader [] loader where
  instructions := by simp
  sections part := by simp [Section.selection, inScope]
  functions := by simp [functionParts, inScope]
  opened := rfl
  layout := by simp

theorem trans {loader between final : Loader} {front back : List Instruction}
    (first : Extends loader front between) (second : Extends between back final) :
    Extends loader (front ++ back) final where
  instructions := by
    rw [second.instructions, first.instructions, List.append_assoc]
  sections part := by
    rw [second.sections, first.sections, first.opened, Section.selection_append, List.append_assoc]
  functions := by
    rw [second.functions, first.functions, first.opened, functionParts_append, List.append_assoc]
  opened := by
    rw [second.opened, first.opened, leftOpen_append]
  layout := by
    rw [← List.append_assoc]
    exact second.layout.trans (first.layout.append_right back)

end Extends

namespace Filing

variable {limit : Nat} {shelf filed : Module} {current next : Option OpenFunction}
  {inst : Instruction}

theorem instructions (filing : Filing shelf current inst filed next) :
    filed.instructions = shelf.instructions := by
  cases filing with
  | filed wanted room => exact Section.instructions_file inst shelf _
  | grown unwanted grows => rfl

theorem contents (filing : Filing shelf current inst filed next) (part : Section) :
    part.contents filed =
      part.contents shelf ++ part.selection current.isSome [inst] := by
  rw [Section.selection_singleton]
  cases filing with
  | @filed home wanted room =>
    rw [Section.contents_file room]
    by_cases same : part = home
    · rw [if_pos same, if_pos (same ▸ wanted)]
    · rw [if_neg same, if_neg]
      intro alsoWanted
      exact same (Section.eq_of_wants alsoWanted wanted)
  | grown unwanted grows =>
    rw [unwanted part]
    cases part <;> simp [shelve, Section.contents]

theorem inFunctions (filing : Filing shelf current inst filed next) :
    (Loader.mk limit filed next).module.inFunctions =
      (Loader.mk limit shelf current).module.inFunctions ++
        functionParts current.isSome [inst] := by
  rw [inFunctions_module, inFunctions_module]
  cases filing with
  | filed wanted room =>
    rw [functionParts_of_wants wanted]
    simp [Module.inFunctions, functionParts, inScope]
  | @grown closed next unwanted grows =>
    have shelved : (shelve shelf closed).inFunctions =
        shelf.inFunctions ++ closed.toList.flatMap Function.instructions := by
      simp [shelve, Module.inFunctions]
    rw [functionParts_of_unwanted unwanted, shelved, List.append_assoc, grows.inOpenFunction,
      List.append_assoc]
    rfl

theorem isSome (filing : Filing shelf current inst filed next) :
    next.isSome = leftOpen current.isSome [inst] := by
  cases filing with
  | filed wanted room => exact (Section.leavesOpen_of_wants wanted).symm
  | grown unwanted grows => exact grows.isSome

/-- Exactly one place of the layout takes in the instruction. -/
theorem inLayout_perm (filing : Filing shelf current inst filed next) :
    (Loader.mk limit filed next).module.inLayout.Perm
      ((Loader.mk limit shelf current).module.inLayout ++ [inst]) := by
  simp only [Module.inLayout_eq, contents_module, filing.contents, filing.inFunctions]
  generalize (Loader.mk limit shelf current).module.inFunctions = functions
  -- The instruction is the one that its section, or else the open function, gains.
  conv => rhs; rw [← selections_singleton current.isSome inst]
  have sections := Section.all.flatMap_append_perm (·.contents shelf)
    (·.selection current.isSome [inst])
  refine (sections.symm.append_right _).trans ?_
  rw [List.append_assoc, List.append_assoc]
  exact (List.perm_append_comm_assoc _ _ _).append_left _

theorem extended {loader : Loader}
    (filing : Filing (loader.noted inst).shelf loader.current inst filed next) :
    Extends loader [inst] ⟨loader.limit, filed, next⟩ where
  instructions := by
    rw [instructions_module, instructions_module, filing.instructions]
    exact Array.toList_push
  sections part := by
    rw [contents_module, contents_module, filing.contents]
    cases part <;> rfl
  functions := by
    have functions : (loader.noted inst).module.inFunctions = loader.module.inFunctions := by
      rw [module_noted]
      rfl
    rw [← functions]
    exact filing.inFunctions
  opened := filing.isSome
  layout := by
    have layout : (loader.noted inst).module.inLayout = loader.module.inLayout := by
      rw [module_noted]
      rfl
    rw [← layout]
    exact filing.inLayout_perm

end Filing

theorem extends_of_add {loader after : Loader} {inst : Instruction}
    (added : loader.add inst = (.proceed, after)) : Extends loader [inst] after := by
  have steps := loader.add_added inst
  rw [added] at steps
  cases steps with
  | placed room filing => exact filing.extended

theorem extends_of_callAll {loader final : Loader} {entries : List Framed} {calls : List Call}
    (called : sink.callAll (entries.map Framed.event) loader = (calls, final))
    (accepted : ∀ call ∈ calls, call.answer = .proceed) :
    Extends loader (entries.map Prod.snd) final := by
  induction entries generalizing loader calls with
  | nil =>
    cases called
    exact .refl _
  | cons entry later inductionHypothesis =>
    cases called
    obtain ⟨proceeds, others⟩ := List.forall_mem_cons.mp accepted
    have added : loader.add entry.2 = (.proceed, (loader.add entry.2).2) :=
      Prod.ext proceeds rfl
    exact (extends_of_add added).trans (inductionHypothesis rfl others)

end Loader

/-- A load that accepts all instructions of a stream keeps them all, each in exactly one place of
the layout: in the section that wants it, or else in a function, and in the order of the stream. -/
theorem layout_of_accepted {loader final : Loader} {entries : List Framed} {calls : List Call}
    (called : Loader.sink.callAll (.start :: entries.map Framed.event) loader = (calls, final))
    (accepted : ∀ call ∈ calls, call.answer = .proceed) :
    final.module.instructions.toList = entries.map Prod.snd ∧
      (∀ part : Section,
        part.contents final.module = part.selection false (entries.map Prod.snd)) ∧
      final.module.functions.toList.flatMap Function.instructions =
        functionParts false (entries.map Prod.snd) ∧
      final.module.inLayout.Perm (entries.map Prod.snd) ∧
      final.current.isSome = leftOpen false (entries.map Prod.snd) := by
  cases called
  obtain ⟨-, others⟩ := List.forall_mem_cons.mp accepted
  have loaded : (Loader.ofModule {} loader.limit).Extends (entries.map Prod.snd) _ :=
    Loader.extends_of_callAll rfl others
  have empty (part : Section) :
      part.contents (Loader.ofModule {} loader.limit).module = [] := by
    cases part <;> rfl
  refine ⟨loaded.instructions, ?_, loaded.functions, loaded.layout, loaded.opened⟩
  intro part
  have held := loaded.sections part
  rw [empty part] at held
  exact held

/-- A function with an instruction of a section inside its block, and variables inside and outside
of it. -/
def interleaved : List Framed :=
  [opCapability, opVariable, opFunction, opLabel, opVariable, opName, opReturn, opFunctionEnd,
    opLine].map fun opcode => (⟨0, 0, 0, []⟩, .ofOpcode opcode)

theorem layout_interleaved :
    ∃ calls final,
      Loader.sink.callAll (.start :: interleaved.map Framed.event)
          (.ofModule { debugs := #[.ofOpcode opString] } 9) = (calls, final) ∧
        (∀ call ∈ calls, call.answer = .proceed) ∧
        Section.debugs.contents final.module = [.ofOpcode opName] ∧
        Section.globals.contents final.module = [.ofOpcode opVariable, .ofOpcode opLine] ∧
        final.module.functions.toList.flatMap Function.instructions =
          [opFunction, opLabel, opVariable, opReturn, opFunctionEnd].map Instruction.ofOpcode := by
  have accepted : ∀ call ∈ (Loader.sink.callAll (.start :: interleaved.map Framed.event)
      (.ofModule { debugs := #[.ofOpcode opString] } 9)).1, call.answer = .proceed := by
    decide +kernel
  obtain ⟨-, sections, functions, -⟩ := layout_of_accepted (Prod.eta _).symm accepted
  refine ⟨_, _, (Prod.eta _).symm, accepted, ?_, ?_, ?_⟩
  · rw [sections]
    decide +kernel
  · rw [sections]
    decide +kernel
  · rw [functions]
    decide +kernel

end SpirvInspector
