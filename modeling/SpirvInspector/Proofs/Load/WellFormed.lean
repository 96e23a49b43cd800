import SpirvInspector.Proofs.Load.Conservation

/-!
# Well-formed loads

Whoever calls a loader, in whatever order and whatever it has answered before, finds closed
functions of closed blocks and perhaps one open function behind them, with perhaps one open block at
its end. An instruction that is refused is only noted, so the stream exceeds the layout by the
refused instructions.
-/

set_option autoImplicit false

namespace SpirvInspector

open Opcode

namespace Block

/-- The last instruction of a block, and no other, is a terminator. -/
def Terminated (block : Block) : Prop :=
  ∃ inner last, block.body.toList = inner ++ [last] ∧ last.opcode.isTerminator = true ∧
    ∀ inst ∈ inner, inst.opcode.isTerminator = false

/-- No instruction of a block is a terminator. -/
def Unterminated (block : Block) : Prop :=
  ∀ inst ∈ block.body.toList, inst.opcode.isTerminator = false

theorem unterminated_push {label inst : Instruction} {body : Array Instruction}
    (unterminated : Unterminated ⟨label, body⟩) (isInner : inst.opcode.placement.isInner = true) :
    Unterminated ⟨label, body.push inst⟩ := by
  have notTerminator : inst.opcode.isTerminator = false := by
    rw [← Bool.not_eq_true]
    intro terminates
    apply Placement.ne_terminator_of_isInner isInner
    exact placement_of_covers terminates Placement.noConfusion
  intro other isIn
  rw [Array.toList_push, List.mem_append, List.mem_singleton] at isIn
  rcases isIn with isBefore | rfl
  · exact unterminated other isBefore
  · exact notTerminator

theorem terminated_push {label inst : Instruction} {body : Array Instruction}
    (unterminated : Unterminated ⟨label, body⟩) (terminates : inst.opcode.isTerminator = true) :
    Terminated ⟨label, body.push inst⟩ :=
  ⟨body.toList, inst, Array.toList_push, terminates, unterminated⟩

end Block

/-- A function that was closed. -/
structure Function.Closed (function : Function) : Prop where
  defined : function.definition.opcode = opFunction
  ended : ∃ inst, function.closing = some inst ∧ inst.opcode = opFunctionEnd
  labelled : ∀ block ∈ function.blocks.toList, block.label.opcode = opLabel
  terminated : ∀ block ∈ function.blocks.toList, block.Terminated

/-- A function that is open. -/
structure OpenFunction.Sound (function : OpenFunction) : Prop where
  defined : function.definition.opcode = opFunction
  labelled : ∀ block ∈ function.blocks.toList ++ function.block.toList,
    block.label.opcode = opLabel
  terminated : ∀ block ∈ function.blocks.toList, block.Terminated
  unterminated : ∀ block ∈ function.block, block.Unterminated

namespace Grows

variable {inst : Instruction} {current next : Option OpenFunction} {closed : Option Function}

theorem closed_of_sound (grows : Grows inst current closed next)
    (sound : ∀ function ∈ current, function.Sound) : ∀ function ∈ closed, function.Closed := by
  cases grows with
  | @closes definition parameters blocks placed =>
    rintro function ⟨⟩
    have isSound := sound _ rfl
    have isEnd : inst.opcode = opFunctionEnd := (placement_eq_iff Placement.noConfusion).mp placed
    exact ⟨isSound.defined, ⟨inst, rfl, isEnd⟩, by simpa using isSound.labelled, isSound.terminated⟩
  | _ => exact fun _ isClosed => nomatch isClosed

theorem sound_of_sound (grows : Grows inst current closed next)
    (sound : ∀ function ∈ current, function.Sound) : ∀ function ∈ next, function.Sound := by
  cases grows with
  | opens placed =>
    rintro function ⟨⟩
    have isFunction : inst.opcode = opFunction := (placement_eq_iff Placement.noConfusion).mp placed
    exact ⟨isFunction, by simp, by simp, by simp⟩
  | closes placed => exact fun _ isOpen => nomatch isOpen
  | parameter placed =>
    rintro function ⟨⟩
    obtain ⟨defined, labelled, terminated, unterminated⟩ := sound _ rfl
    exact ⟨defined, labelled, terminated, unterminated⟩
  | label placed =>
    rintro function ⟨⟩
    obtain ⟨defined, labelled, terminated, -⟩ := sound _ rfl
    have isLabel : inst.opcode = opLabel := (placement_eq_iff Placement.noConfusion).mp placed
    refine ⟨defined, ?_, terminated, ?_⟩
    · intro block isIn
      rcases List.mem_append.mp isIn with isBefore | isHere
      · exact labelled block (List.mem_append_left _ isBefore)
      · cases List.mem_singleton.mp isHere
        exact isLabel
    · rintro block ⟨⟩ other isIn
      cases isIn
  | @inner definition label parameters body blocks isInner =>
    rintro function ⟨⟩
    obtain ⟨defined, labelled, terminated, unterminated⟩ := sound _ rfl
    refine ⟨defined, ?_, terminated, ?_⟩
    · simpa [or_imp, forall_and] using labelled
    · rintro block ⟨⟩
      exact Block.unterminated_push (unterminated _ rfl) isInner
  | @terminator definition label parameters body blocks placed =>
    rintro function ⟨⟩
    obtain ⟨defined, labelled, terminated, unterminated⟩ := sound _ rfl
    have terminates : inst.opcode.isTerminator = true :=
      (placement_eq_iff Placement.noConfusion).mp placed
    -- The block that was open is now the last of the closed ones.
    refine ⟨defined, ?_, ?_, by simp⟩
    · simpa [or_imp, forall_and] using labelled
    · intro block isIn
      rw [Array.toList_push, List.mem_append, List.mem_singleton] at isIn
      rcases isIn with isBefore | rfl
      · exact terminated block isBefore
      · exact Block.terminated_push (unterminated _ rfl) terminates

end Grows

namespace Loader

/-- What a loader keeps to, said of the closed functions and the open one apart. -/
structure Sound (loader : Loader) : Prop where
  closed : ∀ function ∈ loader.shelf.functions.toList, function.Closed
  opened : ∀ function ∈ loader.current, function.Sound
  limited : 0 < loader.limit → loader.shelf.instructions.size ≤ loader.limit

theorem size_noted_le {loader : Loader} {inst : Instruction} (room : ¬loader.IsFull)
    (positive : 0 < loader.limit) :
    (loader.noted inst).shelf.instructions.size ≤ loader.limit := by
  change (loader.shelf.instructions.push inst).size ≤ loader.limit
  rw [Array.size_push]
  apply Nat.lt_of_not_le
  intro reached
  exact room ⟨positive, reached⟩

namespace Sound

variable {loader : Loader}

/-- An instruction that the layout takes in leaves it sound. -/
theorem of_filing {inst : Instruction} {filed : Module} {next : Option OpenFunction}
    (sound : Sound loader) (room : ¬loader.IsFull)
    (filing : Filing (loader.noted inst).shelf loader.current inst filed next) :
    Sound ⟨loader.limit, filed, next⟩ where
  closed := by
    cases filing with
    | filed wanted room =>
      rw [Section.functions_file]
      exact sound.closed
    | @grown closed next unwanted grows =>
      intro function isIn
      have shelved : (shelve (loader.noted inst).shelf closed).functions.toList =
          loader.shelf.functions.toList ++ closed.toList := by
        simp [shelve, noted]
      rw [shelved, List.mem_append, Option.mem_toList] at isIn
      rcases isIn with wasClosed | isClosed
      · exact sound.closed function wasClosed
      · exact grows.closed_of_sound sound.opened function isClosed
  opened := by
    cases filing with
    | filed wanted room => exact sound.opened
    | grown unwanted grows => exact grows.sound_of_sound sound.opened
  limited := by
    intro positive
    rw [filing.instructions]
    exact size_noted_le room positive

end Sound

end Loader

/-- Counts the instructions that were refused, anew from each start on. -/
def countRefusal (count : Nat) (call : Call) : Nat :=
  match call.event, call.answer with
  | .start, _ => 0
  | .instruction _ _, .error _ => count + 1
  | _, _ => count

/-- The number of instructions that were refused since the last start. -/
def refusals (calls : List Call) : Nat :=
  calls.foldl countRefusal 0

theorem refusals_concat (calls : List Call) (call : Call) :
    refusals (calls ++ [call]) = countRefusal (refusals calls) call := by
  simp [refusals]

namespace Loader

/-- `Settled limit calls loader`: what a loader has come to after calls. -/
structure Settled (limit : Nat) (calls : List Call) (loader : Loader) : Prop where
  limit : loader.limit = limit
  sound : Sound loader
  noted : loader.module.instructions.size = loader.module.inLayout.length + refusals calls

namespace Settled

variable {limit : Nat} {calls : List Call} {loader : Loader}

theorem start (limit : Nat) {calls : List Call} (none : refusals calls = 0) :
    Settled limit calls (ofModule {} limit) where
  limit := rfl
  sound := by
    constructor <;> simp [ofModule]
  noted := by
    rw [none]
    rfl

theorem header (settled : Settled limit calls loader) (header : Header) :
    Settled limit (calls ++ [⟨.header header, .proceed⟩]) (loader.header header).2 where
  limit := settled.limit
  sound := ⟨settled.sound.closed, settled.sound.opened, settled.sound.limited⟩
  noted := by
    have layout :
        (loader.header header).2.module = { loader.module with header := some header } := by
      rcases loader with ⟨limit, shelf, _ | function⟩ <;> rfl
    rw [refusals_concat, layout]
    exact settled.noted

theorem added {inst : Instruction} {answer : Answer} {after : Loader} (frame : Frame)
    (settled : Settled limit calls loader) (added : Added loader inst answer after) :
    Settled limit (calls ++ [⟨.instruction frame inst, answer⟩]) after where
  limit := by
    cases added <;> exact settled.limit
  sound := by
    cases added with
    | stopped full => exact settled.sound
    | refused room refused =>
      refine ⟨settled.sound.closed, settled.sound.opened, ?_⟩
      intro positive
      exact size_noted_le room positive
    | placed room filing => exact settled.sound.of_filing room filing
  noted := by
    have noted := settled.noted
    rw [refusals_concat]
    cases added with
    | stopped full => exact noted
    | refused room refused =>
      rw [module_noted]
      change (loader.module.instructions.push inst).size =
        loader.module.inLayout.length + (refusals calls + 1)
      rw [Array.size_push, noted, Nat.add_assoc]
    | @placed filed next room filing =>
      have size := congrArg List.length filing.extended.instructions
      have length := filing.extended.layout.length_eq
      rw [List.length_append, Array.length_toList, Array.length_toList] at size
      rw [List.length_append] at length
      change _ = _ + refusals calls
      omega

theorem receive (event : Event) (settled : Settled limit calls loader) :
    Settled limit (calls ++ [⟨event, (receive event loader).1⟩]) (receive event loader).2 := by
  cases event with
  | start =>
    rw [← settled.limit]
    exact .start _ (refusals_concat calls _)
  | header header => exact settled.header header
  | instruction frame inst => exact settled.added frame (loader.add_added inst)
  | finish =>
    refine ⟨settled.limit, settled.sound, ?_⟩
    rw [refusals_concat]
    exact settled.noted

end Settled

end Loader

end SpirvInspector
