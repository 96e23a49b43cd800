import SpirvInspector.Parse.Trace
import SpirvInspector.Proofs.Decode.Throwing
import SpirvInspector.Proofs.Parse.Delivery
import SpirvInspector.Proofs.Parse.Relocation

/-!
# Parsing that throws

The parser as a machine with one cursor over the whole module, to which it sets a limit for the
operands of each instruction. Faults are caught in two places only: around the words of the header
and around the operands of an instruction. Nothing guards the first word of an instruction, the
words that a trace reads once more, or the lookups of kinds. Each round of a loop reads something,
so that every loop ends.
-/

set_option autoImplicit false

namespace SpirvInspector

variable {σ : Type}

theorem Cursor.bytesLeft_advance_lt {cursor : Cursor} {words : Nat} (positive : 0 < words)
    (within : words ≤ cursor.limitRemaining) :
    (cursor.advance words).bytesLeft < cursor.bytesLeft := by
  have long := cursor.length_of_limitRemaining
  rw [bytesLeft, bytesLeft, rest_advance, List.length_drop]
  omega

theorem Attempt.bytesLeft_of_word {cursor behind : Cursor} {first : Word}
    (read : word cursor = .ok (first, behind)) : behind.bytesLeft < cursor.bytesLeft := by
  rw [word, Attempt.read] at read
  rcases cursor.nextWord_cases with ⟨available, found, isRead, -⟩ | ⟨-, failed⟩
  · rw [isRead] at read
    cases read
    exact Cursor.bytesLeft_advance_lt Nat.one_pos available
  · rw [failed] at read
    cases read

namespace Draft

def attemptOperand (kind : OperandKind) (draft : Draft) : Except Thrown Draft := do
  match kind with
  | .idResultType =>
    let (type, cursor) ← Attempt.word draft.cursor
    return { draft with resultType := some type, cursor }
  | .idResult =>
    let (id, cursor) ← Attempt.word draft.cursor
    return { draft with resultId := some id, cursor }
  | kind =>
    let (operands, cursor) ← Attempt.decode kind draft.cursor
    return { draft with operands := draft.operands ++ operands, cursor }

/-- What comes of an operand is returned where it is read, and thrown where it has a fault. -/
theorem attemptOperand_cases (kind : OperandKind) (draft : Draft) :
    (∃ next, draft.operand kind = .ok next ∧ draft.attemptOperand kind = .ok next) ∨
      (∃ fault, draft.operand kind = .error (.fault fault) ∧
        draft.attemptOperand kind = .error (.fault fault)) := by
  unfold attemptOperand
  split
  · unfold operand Attempt.word Attempt.read
    rcases draft.cursor.nextWord with ⟨fault | type, behind⟩
    · exact .inr ⟨fault, rfl, rfl⟩
    · exact .inl ⟨_, rfl, rfl⟩
  · unfold operand Attempt.word Attempt.read
    rcases draft.cursor.nextWord with ⟨fault | id, behind⟩
    · exact .inr ⟨fault, rfl, rfl⟩
    · exact .inl ⟨_, rfl, rfl⟩
  · next notType notId =>
    rw [operand_of_ne draft notType notId, Attempt.decode_eq]
    rcases kind.decode draft.cursor with ⟨operands, behind, _ | fault⟩
    · exact .inl ⟨_, rfl, rfl⟩
    · exact .inr ⟨fault, rfl, rfl⟩

theorem operand_of_attemptOperand {kind : OperandKind} {draft next : Draft}
    (read : draft.attemptOperand kind = .ok next) : draft.operand kind = .ok next := by
  rcases draft.attemptOperand_cases kind with ⟨taken, isRead, attempted⟩ | ⟨fault, -, attempted⟩
  · rw [read] at attempted
    cases attempted
    exact isRead
  · rw [read] at attempted
    cases attempted

theorem fault_of_attemptOperand {kind : OperandKind} {draft : Draft} {thrown : Thrown}
    (failed : draft.attemptOperand kind = .error thrown) :
    ∃ fault, thrown = .fault fault ∧ draft.operand kind = .error (.fault fault) := by
  rcases draft.attemptOperand_cases kind with ⟨next, -, attempted⟩ | ⟨fault, isFailed, attempted⟩
  · rw [failed] at attempted
    cases attempted
  · rw [failed] at attempted
    cases attempted
    exact ⟨fault, rfl, isFailed⟩

theorem bytesLeft_of_attemptOperand {kind : OperandKind} {draft next : Draft}
    (read : draft.attemptOperand kind = .ok next) :
    next.cursor.bytesLeft < draft.cursor.bytesLeft := by
  obtain ⟨words, positive, within, cursor⟩ :=
    (took_of_operand (operand_of_attemptOperand read)).cursor_eq
  rw [cursor]
  exact Cursor.bytesLeft_advance_lt positive within

/-- The logical operands that are due behind one that was read. One that repeats keeps its place. -/
def due (logical : LogicalOperand) (later : List LogicalOperand) : List LogicalOperand :=
  if logical.quantifier = .zeroOrMore then logical :: later else later

/-- The loop over logical operands, each round of which reads a word at least. -/
def attemptOperands (logicals : List LogicalOperand) (draft : Draft) :
    Except Thrown (Except Misfit Draft) :=
  match logicals with
  | [] => .ok (.ok draft)
  | logical :: later =>
    if draft.cursor.limitReached then
      if logical.quantifier = .one then .ok (.error (.expected draft.cursor.offset))
      else .ok (.ok draft)
    else
      match read : draft.attemptOperand logical.kind with
      | .error thrown => .error thrown
      | .ok next =>
        have := bytesLeft_of_attemptOperand read
        attemptOperands (due logical later) next
termination_by draft.cursor.bytesLeft

/-- Of the ways in which a run of the loop ends early, only a fault is thrown. -/
def thrown : Except Misfit Draft → Except Thrown (Except Misfit Draft)
  | .error (.fault fault) => .error (.fault fault)
  | result => .ok result

theorem attemptOperands_runs (logicals : List LogicalOperand) (draft : Draft) :
    ∃ result, Runs logicals draft result ∧ attemptOperands logicals draft = thrown result := by
  fun_induction attemptOperands logicals draft with
  | case1 draft => exact ⟨_, .done, rfl⟩
  | case2 draft logical later drained required => exact ⟨_, .missing drained required, rfl⟩
  | case3 draft logical later drained optional => exact ⟨_, .absent drained optional, rfl⟩
  | case4 draft logical later remains thrown failed =>
    rw [Bool.not_eq_true] at remains
    obtain ⟨fault, rfl, isFailed⟩ := fault_of_attemptOperand failed
    exact ⟨_, .fault remains isFailed, rfl⟩
  | case5 draft logical later remains next attempted _ inductionHypothesis =>
    rw [Bool.not_eq_true] at remains
    obtain ⟨result, others, isResult⟩ := inductionHypothesis
    have read := operand_of_attemptOperand attempted
    refine ⟨result, ?_, isResult⟩
    by_cases repeats : logical.quantifier = .zeroOrMore
    · rw [due, if_pos repeats] at others
      exact .again remains repeats read others
    · rw [due, if_neg repeats] at others
      exact .once remains repeats read others

end Draft

namespace Frame

/-- The instruction in a frame, with the cursor behind it. A fault of its operands is caught. -/
def attempt (frame : Frame) (form : InstructionForm) (cursor : Cursor) :
    Except Thrown (Except Misfit (Instruction × Cursor)) :=
  match Draft.attemptOperands form.operands
      ⟨none, none, #[], cursor.setLimit (frame.wordCount - 1)⟩ with
  | .error (.fault fault) => .ok (.error (.fault fault))
  | .error thrown => .error thrown
  | .ok (.error misfit) => .ok (.error misfit)
  | .ok (.ok draft) =>
    if draft.cursor.limitReached then
      .ok (.ok (draft.instruction frame.opcode, draft.cursor.clearLimit))
    else .ok (.error (.exceeded draft.cursor.offset))

variable {frame : Frame} {form : InstructionForm}

theorem bytesLeft_of_attempt {cursor behind : Cursor} {inst : Instruction}
    (attempted : frame.attempt form cursor = .ok (.ok (inst, behind))) :
    behind.bytesLeft ≤ cursor.bytesLeft := by
  obtain ⟨result, runs, isResult⟩ := Draft.attemptOperands_runs form.operands
    ⟨none, none, #[], cursor.setLimit (frame.wordCount - 1)⟩
  rw [attempt, isResult] at attempted
  rcases result with (offset | offset | fault) | draft
  · cases attempted
  · cases attempted
  · cases attempted
  · obtain ⟨words, -, isCursor⟩ := runs.cursor_eq
    dsimp only [Draft.thrown] at attempted
    split at attempted
    · cases attempted
      change draft.cursor.rest.length ≤ cursor.rest.length
      rw [isCursor, Cursor.rest_advance, List.length_drop]
      exact Nat.sub_le _ _
    · cases attempted

/-- Around the operands of a whole frame, the limit keeps the cursor from all that follows. -/
theorem attempt_eq (whole : frame.Whole) {cursor : Cursor} (unlimited : cursor.limit = none)
    (cut : (cursor.setLimit (frame.wordCount - 1)).relocate 0 = frame.cursor) :
    frame.attempt form cursor =
      .ok ((frame.instruction form).map fun inst =>
        (inst, cursor.advance (frame.wordCount - 1))) := by
  obtain ⟨result, runs, isResult⟩ := Draft.attemptOperands_runs form.operands
    ⟨none, none, #[], cursor.setLimit (frame.wordCount - 1)⟩
  have moved : Draft.Runs form.operands frame.draft (Draft.relocateResult 0 result) := by
    have further := runs.relocate 0
    rw [Draft.relocate, cut] at further
    exact further
  have read : Draft.operandList form.operands ⟨none, none, #[], frame.cursor⟩ =
      Draft.relocateResult 0 result := moved.operandList_eq whole.windowed
  rw [attempt, isResult, instruction, read]
  rcases result with (offset | offset | fault) | draft
  · rfl
  · rfl
  · rfl
  · obtain ⟨words, within, isCursor⟩ := runs.cursor_eq
    have reached : (draft.relocate 0).cursor.limitReached = draft.cursor.limitReached := rfl
    dsimp only [Draft.thrown, Draft.relocateResult]
    rw [reached]
    by_cases drained : draft.cursor.limitReached = true
    · rw [if_pos drained, if_pos drained]
      -- No more words were read than the limit allows, and a limit that is reached allows no fewer.
      have all : words = frame.wordCount - 1 := by
        rw [Cursor.limitRemaining_of_some rfl] at within
        rw [isCursor] at drained
        have none : frame.wordCount - 1 - words = 0 := by
          simpa [Cursor.limitReached, Cursor.advance, Cursor.setLimit] using drained
        omega
      have behind : draft.cursor.clearLimit = cursor.advance (frame.wordCount - 1) := by
        rw [isCursor, all]
        simp [Cursor.clearLimit, Cursor.setLimit, Cursor.advance, unlimited]
      rw [behind]
      rfl
    · rw [if_neg drained, if_neg drained]
      rfl

end Frame

/-- The words of an instruction, each read once more by a cursor of its own. -/
def rawWords (bytes : Bytes) (offset : Nat) : Nat → Except Thrown (List Word)
  | 0 => return []
  | count + 1 => do
    let (word, _) ← Attempt.word (.ofBytes ((bytes.drop offset).take 4) .little)
    let later ← rawWords bytes (offset + 4) count
    return word :: later

/-- What a trace shows of an instruction, for which the kinds of its operands are looked up. -/
def traceLine (bytes : Bytes) (frame : Frame) (inst : Instruction) : Except Thrown Bytes := do
  match inst.undescribed? with
  | some missing => throw (.unlisted missing)
  | none =>
    let words ← rawWords bytes frame.offset frame.wordCount
    return ascii "0x" ++ Text.hex 5 frame.offset ++ ascii ": " ++ inst.render ++
      ascii "\n        " ++ words.flatMap (fun word => ascii " " ++ Text.hex 8 word.toNat) ++
      ascii "\n"

def traceText (tracing : Bool) (bytes : Bytes) (frame : Frame) (inst : Instruction) :
    Except Thrown Bytes :=
  if tracing then traceLine bytes frame inst else return []

section Tracing

variable {bytes rest : Bytes} {frame : Frame} {inst : Instruction}

theorem rawWords_eq {words : List Word} {offset : Nat}
    (there : bytes.drop offset = Word.serialize words ++ rest) :
    rawWords bytes offset words.length = .ok words := by
  induction words generalizing offset with
  | nil => rfl
  | cons word words inductionHypothesis =>
    have split : bytes.drop offset = word.bytes ++ (Word.serialize words ++ rest) := by
      rw [there, ← List.append_assoc]
      rfl
    have here : (bytes.drop offset).take 4 = word.bytes ++ [] := by
      rw [split, List.append_nil, List.take_left' word.length_bytes]
    have behind : bytes.drop (offset + 4) = Word.serialize words ++ rest := by
      rw [← List.drop_drop, split, List.drop_left' word.length_bytes]
    have available : 0 < (Cursor.ofBytes ((bytes.drop offset).take 4) .little).limitRemaining := by
      rw [Cursor.limitRemaining_of_none rfl, here]
      simp [Cursor.ofBytes]
    have read := Cursor.nextWord_of_bytes available rfl here
    rw [List.length_cons, rawWords, Attempt.word, Attempt.read, read, inductionHypothesis behind]
    rfl

theorem Frame.Whole.serialize_words (whole : frame.Whole) :
    Word.serialize frame.words = frame.first.bytes ++ frame.window := by
  change frame.first.bytes ++ Word.serialize (Word.ofBytes .little frame.window) = _
  rw [Word.serialize_ofBytes whole.window]

theorem Frame.Whole.length_words (whole : frame.Whole) : frame.words.length = frame.wordCount := by
  have size := congrArg List.length whole.serialize_words
  have window := whole.window
  have positive := whole.positive
  simp [Word.serialize, window] at size
  omega

theorem Groups.undescribed? {kinds : List OperandKind} {operands : List Operand}
    (groups : Groups kinds operands) : operands.findSome? Operand.undescribed? = none := by
  induction groups with
  | nil => rfl
  | cons opens _ _ parameters others =>
    rw [List.findSome?_append, List.findSome?_append, parameters, others]
    cases opens <;> rfl

/-- Whatever fills a form has kinds of the table only. -/
theorem Fills.undescribed? {logicals : List LogicalOperand} {resultType resultId : Option Word}
    {operands : List Operand} (fills : Fills logicals resultType resultId operands) :
    operands.findSome? Operand.undescribed? = none := by
  induction fills with
  | done => rfl
  | absent optional => rfl
  | resultType type _ inductionHypothesis => exact inductionHypothesis
  | resultId id _ inductionHypothesis => exact inductionHypothesis
  | group _ _ group _ inductionHypothesis | another _ _ group _ inductionHypothesis =>
    rw [List.findSome?_append, group.undescribed?, inductionHypothesis]
    rfl

theorem traceLine_eq (holds : frame.Holds inst)
    (there : bytes.drop frame.offset = frame.first.bytes ++ frame.window ++ rest) :
    traceLine bytes frame inst = .ok (TraceEntry.instruction frame inst).render := by
  obtain ⟨form, -, fills⟩ := holds.conforms
  have described : inst.undescribed? = none := fills.undescribed?
  rw [← holds.whole.serialize_words] at there
  have read := rawWords_eq there
  rw [holds.whole.length_words] at read
  rw [traceLine, described, read]
  rfl

end Tracing

/-- How a parse ended, the state that the sink was left in, and what was traced. -/
structure Report (σ : Type) where
  outcome : Outcome
  state : σ
  output : Bytes

def Report.ofTraced : Outcome × Traced σ → Report σ
  | (outcome, traced) => ⟨outcome, traced.state, traced.render⟩

/-- All that is kept from one instruction to the next. -/
structure Machine (σ : Type) where
  cursor : Cursor
  /-- The index of the next instruction. -/
  index : Nat
  state : σ
  output : Bytes

inductive Progress (σ : Type)
  | ended (report : Report σ)
  | going (machine : Machine σ)

namespace Machine

def report (machine : Machine σ) (outcome : Outcome) : Report σ :=
  ⟨outcome, machine.state, machine.output⟩

def deliver (sink : Sink σ) (event : Event) (machine : Machine σ) : Progress σ :=
  match sink.receive event machine.state with
  | (answer, state) =>
    match answer.refusal? event with
    | some outcome => .ended ⟨outcome, state, machine.output⟩
    | none => .going { machine with state }

/-- Parses one instruction, whose first word is read without a guard. -/
def step (sink : Sink σ) (tracing : Bool) (bytes : Bytes) (machine : Machine σ) :
    Except Thrown (Progress σ) := do
  let (first, behind) ← Attempt.word machine.cursor
  match Frame.read machine.cursor.offset machine.index first behind.rest with
  | .error outcome => return .ended (machine.report outcome)
  | .ok (frame, form) =>
    match ← frame.attempt form behind with
    | .error misfit => return .ended (machine.report (frame.outcomeOf misfit))
    | .ok (inst, cursor) =>
      let text ← traceText tracing bytes frame inst
      let traced : Machine σ :=
        ⟨cursor, machine.index + 1, machine.state, machine.output ++ text⟩
      return traced.deliver sink (.instruction frame inst)

variable {sink : Sink σ} {tracing : Bool} {bytes : Bytes} {machine next : Machine σ}

theorem cursor_of_deliver {event : Event} (delivered : machine.deliver sink event = .going next) :
    next.cursor = machine.cursor := by
  unfold deliver at delivered
  split at delivered
  split at delivered
  · cases delivered
  · cases delivered
    rfl

theorem bytesLeft_of_step (stepped : machine.step sink tracing bytes = .ok (.going next)) :
    next.cursor.bytesLeft < machine.cursor.bytesLeft := by
  obtain ⟨⟨first, behind⟩, read, stepped⟩ := Thrown.exists_of_bind stepped
  dsimp only at stepped
  split at stepped
  · cases stepped
  · next frame form framed =>
    obtain ⟨_ | ⟨inst, cursor⟩, attempted, stepped⟩ := Thrown.exists_of_bind stepped
    · cases stepped
    · obtain ⟨text, -, stepped⟩ := Thrown.exists_of_bind stepped
      have delivered := cursor_of_deliver (Except.ok.inj stepped)
      have within := Frame.bytesLeft_of_attempt attempted
      rw [delivered]
      exact Nat.lt_of_le_of_lt within (Attempt.bytesLeft_of_word read)

/-- Parses instructions until fewer bytes are left than a word has. -/
def run (sink : Sink σ) (tracing : Bool) (bytes : Bytes) (machine : Machine σ) :
    Except Thrown (Report σ) :=
  if machine.cursor.bytesLeft < 4 then
    match machine.deliver sink .finish with
    | .ended report => .ok report
    | .going last => .ok (last.report (.ofState .complete))
  else
    match stepped : machine.step sink tracing bytes with
    | .error thrown => .error thrown
    | .ok (.ended report) => .ok report
    | .ok (.going next) =>
      have := bytesLeft_of_step stepped
      run sink tracing bytes next
termination_by machine.cursor.bytesLeft

end Machine

namespace Progress

def proceed (sink : Sink σ) (tracing : Bool) (bytes : Bytes) :
    Progress σ → Except Thrown (Report σ)
  | ended report => .ok report
  | going machine => machine.run sink tracing bytes

end Progress

/-- A machine goes on to where its next step leads. -/
theorem Machine.run_of_step {sink : Sink σ} {tracing : Bool} {bytes : Bytes} {machine : Machine σ}
    {progress : Progress σ} (long : 4 ≤ machine.cursor.bytesLeft)
    (stepped : machine.step sink tracing bytes = .ok progress) :
    machine.run sink tracing bytes = progress.proceed sink tracing bytes := by
  rw [run, if_neg (Nat.not_lt_of_le long)]
  split
  · next thrown failed =>
    rw [stepped] at failed
    cases failed
  · next report ended =>
    rw [stepped] at ended
    cases ended
    rfl
  · next after going =>
    rw [stepped] at going
    cases going
    rfl

/-- The header of a module, with the cursor behind it. A fault of its words is caught. -/
def Header.attempt (bytes : Bytes) : Except Thrown (Except Outcome (Header × Cursor)) :=
  match Attempt.read (fun cursor => cursor.nextWords wordCount) (.ofBytes bytes .little) with
  | .error (.fault fault) => .ok (.error (.ofFault .headerIncomplete fault))
  | .error thrown => .error thrown
  | .ok ([magic, version, generator, bound, reserved], cursor) =>
    if magic = magicNumber then .ok (.ok (⟨magic, version, generator, bound, reserved⟩, cursor))
    else if magic = magicNumber.swapped then .ok (.error (.ofState .endiannessUnsupported))
    else .ok (.error (.ofState .headerIncorrect))
  | .ok _ => .error .absent

/-- Parses a module from its header on. -/
def Machine.attemptModule (sink : Sink σ) (tracing : Bool) (bytes : Bytes) (machine : Machine σ) :
    Except Thrown (Report σ) := do
  match ← Header.attempt bytes with
  | .error outcome => return machine.report outcome
  | .ok (header, cursor) =>
    let text := if tracing then (TraceEntry.header header).render else []
    let traced : Machine σ := ⟨cursor, machine.index, machine.state, machine.output ++ text⟩
    (traced.deliver sink (.header header)).proceed sink tracing bytes

/-- Parses a module at a level of verbosity; from level 2 on the parse is traced. -/
def attemptParse (sink : Sink σ) (state : σ) (verbosity : Int) (bytes : Bytes) :
    Except Thrown (Report σ) :=
  let start : Machine σ := ⟨.ofBytes bytes .little, 1, state, []⟩
  match start.deliver sink .start with
  | .ended report => .ok report
  | .going machine => machine.attemptModule sink (decide (1 < verbosity)) bytes

end SpirvInspector
