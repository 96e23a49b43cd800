import SpirvInspector.Proofs.Load.Sections

/-!
# What a loader does with an instruction

An instruction that is accepted goes to the section that wants it, or it takes the open function one
step further. One that is refused leaves the layout alone, and one past the limit leaves everything
alone. All that is proved about loads is read off these steps.
-/

set_option autoImplicit false

namespace SpirvInspector

/-- Whether a placement is the middle of a block, if it is in a function at all. -/
def Placement.isInner : Placement → Bool
  | .function | .functionEnd | .functionParameter | .label | .terminator => false
  | _ => true

theorem Placement.ne_terminator_of_isInner {placement : Placement}
    (isInner : placement.isInner = true) : placement ≠ .terminator := by
  rintro rfl
  cases isInner

/-- `Grows inst current closed next`: the open function takes in an instruction, and perhaps that
closes it. -/
inductive Grows (inst : Instruction) :
    Option OpenFunction → Option Function → Option OpenFunction → Prop
  | opens (opens : inst.opcode.placement = .function) :
      Grows inst none none (some ⟨inst, #[], #[], none⟩)
  | closes {definition : Instruction} {parameters : Array Instruction} {blocks : Array Block}
      (closes : inst.opcode.placement = .functionEnd) :
      Grows inst (some ⟨definition, parameters, blocks, none⟩)
        (some ⟨definition, parameters, blocks, some inst⟩) none
  | parameter {definition : Instruction} {parameters : Array Instruction}
      (isParameter : inst.opcode.placement = .functionParameter) :
      Grows inst (some ⟨definition, parameters, #[], none⟩) none
        (some ⟨definition, parameters.push inst, #[], none⟩)
  | label {definition : Instruction} {parameters : Array Instruction} {blocks : Array Block}
      (isLabel : inst.opcode.placement = .label) :
      Grows inst (some ⟨definition, parameters, blocks, none⟩) none
        (some ⟨definition, parameters, blocks, some ⟨inst, #[]⟩⟩)
  | inner {definition label : Instruction} {parameters body : Array Instruction}
      {blocks : Array Block} (isInner : inst.opcode.placement.isInner = true) :
      Grows inst (some ⟨definition, parameters, blocks, some ⟨label, body⟩⟩) none
        (some ⟨definition, parameters, blocks, some ⟨label, body.push inst⟩⟩)
  | terminator {definition label : Instruction} {parameters body : Array Instruction}
      {blocks : Array Block} (terminates : inst.opcode.placement = .terminator) :
      Grows inst (some ⟨definition, parameters, blocks, some ⟨label, body⟩⟩) none
        (some ⟨definition, parameters, blocks.push ⟨label, body.push inst⟩, none⟩)

namespace Loader

variable {shelf : Module} {current next : Option OpenFunction} {inst : Instruction}
  {closed : Option Function}

/-- Puts a function that was closed behind the others. -/
def shelve (shelf : Module) (closed : Option Function) : Module :=
  { shelf with functions := shelf.functions ++ closed.toArray }

theorem placeInFunction_of_grows (grows : Grows inst current closed next) :
    placeInFunction shelf current inst = (none, shelve shelf closed, next) := by
  cases grows with
  | opens opens => simp [placeInFunction, opens, shelve]
  | closes closes => simp [placeInFunction, closes, shelve, OpenFunction.close]
  | parameter isParameter => simp [placeInFunction, isParameter, shelve]
  | label isLabel => simp [placeInFunction, isLabel, shelve]
  | terminator terminates => simp [placeInFunction, terminates, shelve]
  | inner isInner =>
    cases placed : inst.opcode.placement <;> rw [placed] at isInner <;> cases isInner <;>
      simp [placeInFunction, placed, shelve]

theorem placeInFunction_of_refused (refused : ∀ closed next, ¬Grows inst current closed next) :
    ∃ error, placeInFunction shelf current inst = (some error, shelf, current) := by
  rcases current with _ | ⟨definition, parameters, blocks, _ | ⟨label, body⟩⟩
  · by_cases opens : inst.opcode.placement = .function
    · exact (refused _ _ (.opens opens)).elim
    · cases placed : inst.opcode.placement <;> simp_all [placeInFunction]
  · cases placed : inst.opcode.placement
    case functionEnd => exact (refused _ _ (.closes placed)).elim
    case label => exact (refused _ _ (.label placed)).elim
    case functionParameter =>
      by_cases blockless : blocks = #[]
      · subst blockless
        exact (refused _ _ (.parameter placed)).elim
      · simp [placeInFunction, placed, blockless]
    all_goals simp [placeInFunction, placed]
  · cases placed : inst.opcode.placement
    case terminator => exact (refused _ _ (.terminator placed)).elim
    case function | functionEnd | functionParameter | label => simp [placeInFunction, placed]
    all_goals exact (refused _ _ (.inner (placed ▸ rfl))).elim

/-- `Filing shelf current inst filed next`: the layout takes in an instruction. -/
inductive Filing (shelf : Module) (current : Option OpenFunction) (inst : Instruction) :
    Module → Option OpenFunction → Prop
  | filed {part : Section} (wanted : part.wants current.isSome inst.opcode = true)
      (room : part.HasRoom shelf) : Filing shelf current inst (part.file inst shelf) current
  | grown {closed : Option Function} {next : Option OpenFunction}
      (unwanted : ∀ part : Section, part.wants current.isSome inst.opcode = false)
      (grows : Grows inst current closed next) :
      Filing shelf current inst (shelve shelf closed) next

theorem place_of_wants {part : Section} (wanted : part.wants current.isSome inst.opcode = true) :
    place shelf current inst =
      if part = .memoryModel ∧ shelf.memoryModel.isSome then
        (some .multipleMemoryModels, shelf, current)
      else (none, part.file inst shelf, current) := by
  rcases Section.wants_iff.mp wanted with placed | ⟨rfl, isClosed, placed⟩
  · cases part <;> simp [place, placed, Section.placement, Section.file]
  · simp only [Option.isSome_eq_false_iff] at isClosed
    simp [place, placed, isClosed, Section.file]

theorem place_of_unwanted
    (unwanted : ∀ part : Section, part.wants current.isSome inst.opcode = false) :
    place shelf current inst = placeInFunction shelf current inst := by
  have excluded (part : Section) :
      ¬(inst.opcode.placement = part.placement ∨
        (part = .globals ∧ current.isSome = false ∧ inst.opcode.placement = .scoped)) := by
    rw [← Section.wants_iff, unwanted part]
    exact Bool.false_ne_true
  cases placed : inst.opcode.placement
  case capability => exact (excluded .capabilities (.inl placed)).elim
  case extension => exact (excluded .extensions (.inl placed)).elim
  case extInstImport => exact (excluded .imports (.inl placed)).elim
  case memoryModel => exact (excluded .memoryModel (.inl placed)).elim
  case entryPoint => exact (excluded .entryPoints (.inl placed)).elim
  case executionMode => exact (excluded .executionModes (.inl placed)).elim
  case debug => exact (excluded .debugs (.inl placed)).elim
  case decoration => exact (excluded .annotations (.inl placed)).elim
  case global => exact (excluded .globals (.inl placed)).elim
  case «scoped» =>
    cases current with
    | none => exact (excluded .globals (.inr ⟨rfl, rfl, placed⟩)).elim
    | some function => simp [place, placed]
  all_goals simp [place, placed]

theorem place_of_filing {filed : Module} (filing : Filing shelf current inst filed next) :
    place shelf current inst = (none, filed, next) := by
  cases filing with
  | filed wanted room =>
    rw [place_of_wants wanted, if_neg]
    rintro ⟨rfl, present⟩
    rw [room rfl] at present
    cases present
  | grown unwanted grows => rw [place_of_unwanted unwanted, placeInFunction_of_grows grows]

theorem place_of_refused (refused : ∀ filed next, ¬Filing shelf current inst filed next) :
    ∃ error, place shelf current inst = (some error, shelf, current) := by
  by_cases wanted : ∃ part : Section, part.wants current.isSome inst.opcode = true
  · obtain ⟨part, wanted⟩ := wanted
    rw [place_of_wants wanted]
    split
    · exact ⟨_, rfl⟩
    · next room =>
      refine (refused _ _ (.filed wanted ?_)).elim
      intro isMemoryModel
      simpa [isMemoryModel] using room
  · simp only [not_exists, Bool.not_eq_true] at wanted
    rw [place_of_unwanted wanted]
    apply placeInFunction_of_refused
    intro closed next grows
    exact refused _ _ (.grown wanted grows)

/-- The limit is reached. -/
def IsFull (loader : Loader) : Prop :=
  0 < loader.limit ∧ loader.limit ≤ loader.shelf.instructions.size

/-- The loader with one more instruction in the stream, and the layout as it was. -/
def noted (loader : Loader) (inst : Instruction) : Loader :=
  { loader with
    shelf := { loader.shelf with instructions := loader.shelf.instructions.push inst } }

/-- `Added loader inst answer after`: what a loader answers to an instruction, and what it does. -/
inductive Added (loader : Loader) (inst : Instruction) : Answer → Loader → Prop
  | stopped (full : loader.IsFull) : Added loader inst .stop loader
  | refused {error : LayoutError} (room : ¬loader.IsFull)
      (refused : ∀ filed next, ¬Filing (loader.noted inst).shelf loader.current inst filed next) :
      Added loader inst (.error error.message) (loader.noted inst)
  | placed {filed : Module} {next : Option OpenFunction} (room : ¬loader.IsFull)
      (filing : Filing (loader.noted inst).shelf loader.current inst filed next) :
      Added loader inst .proceed ⟨loader.limit, filed, next⟩

theorem add_of_room {loader : Loader} (room : ¬loader.IsFull) (inst : Instruction) :
    loader.add inst =
      match place (loader.noted inst).shelf loader.current inst with
      | (refusal, shelf, current) =>
        (match refusal with
          | none => .proceed
          | some error => .error error.message,
          ⟨loader.limit, shelf, current⟩) :=
  if_neg room

theorem add_added (loader : Loader) (inst : Instruction) :
    Added loader inst (loader.add inst).1 (loader.add inst).2 := by
  by_cases full : loader.IsFull
  · have stops : loader.add inst = (.stop, loader) := if_pos full
    rw [stops]
    exact .stopped full
  · rw [add_of_room full]
    by_cases accepted :
        ∃ filed next, Filing (loader.noted inst).shelf loader.current inst filed next
    · obtain ⟨filed, next, filing⟩ := accepted
      rw [place_of_filing filing]
      exact .placed full filing
    · have refused := fun filed next filing => accepted ⟨filed, next, filing⟩
      obtain ⟨error, refuses⟩ := place_of_refused refused
      rw [refuses]
      exact .refused full refused

end Loader

end SpirvInspector
