import SpirvInspector.Proofs.Parse.Observers
import SpirvInspector.Proofs.Parse.Throwing

/-!
# A parse always returns

The machine that throws never does: where it reads a word without a guard the word is there, and
each kind that it looks up is in the table. So it always comes to a report, and the report is that
of the parse with the traced sink.
-/

set_option autoImplicit false

namespace SpirvInspector

variable {σ : Type}

section Agreement

variable {offset index : Nat} {first : Word} {rest : Bytes} {frame : Frame} {form : InstructionForm}
  {inst : Instruction}

theorem Attempt.word_of_bytes (offset : Nat) (first : Word) (rest : Bytes) :
    Attempt.word ⟨first.bytes ++ rest, offset, none, .little⟩ =
      .ok (first, ⟨rest, offset + 4, none, .little⟩) := by
  have available : 0 < (Cursor.mk (first.bytes ++ rest) offset none .little).limitRemaining := by
    rw [Cursor.limitRemaining_of_none rfl, List.length_append, Word.length_bytes]
    omega
  have behind : (Cursor.mk (first.bytes ++ rest) offset none .little).advance 1 =
      ⟨rest, offset + 4, none, .little⟩ := by
    rw [Cursor.advance, Nat.mul_one, List.drop_left' first.length_bytes]
    rfl
  rw [Attempt.word, Attempt.read, Cursor.nextWord_of_bytes available rfl rfl, behind]

theorem Frame.attempt_of_read (framed : Frame.read offset index first rest = .ok (frame, form)) :
    frame.attempt form ⟨rest, offset + 4, none, .little⟩ =
      .ok ((frame.instruction form).map fun inst =>
        (inst, ⟨rest.drop (4 * (frame.wordCount - 1)), offset + 4 * frame.wordCount, none,
          .little⟩)) := by
  obtain ⟨whole, -, isFrame⟩ := Frame.whole_of_read framed
  have positive := whole.positive
  have size : offset + 4 + 4 * (frame.wordCount - 1) = offset + 4 * frame.wordCount := by omega
  rw [Frame.attempt_eq whole rfl (by rw [isFrame]; rfl), Cursor.advance, size]
  rfl

namespace Machine

variable {bytes : Bytes} (sink : Sink σ) (tracing : Bool) (traced : Traced σ)

def ofTraced (cursor : Cursor) (index : Nat) (traced : Traced σ) : Machine σ :=
  ⟨cursor, index, traced.state, traced.render⟩

/-- What an event adds to the output. -/
def written (tracing : Bool) (event : Event) : Bytes :=
  match tracing, TraceEntry.ofEvent? event with
  | true, some entry => entry.render
  | _, _ => []

theorem render_receive (event : Event) :
    ((sink.traced tracing).receive event traced).2.render =
      traced.render ++ written tracing event := by
  unfold Traced.render Sink.traced written
  cases tracing with
  | false => simp
  | true => cases entry : TraceEntry.ofEvent? event <;> simp [entry]

/-- Tracing an event and then handing it on is what a traced sink does. -/
theorem deliver_written {traced after : Traced σ} {event : Event} {answer : Answer}
    (received : (sink.traced tracing).receive event traced = (answer, after)) (cursor : Cursor)
    (index : Nat) :
    deliver sink event ⟨cursor, index, traced.state, traced.render ++ written tracing event⟩ =
      match answer.refusal? event with
      | some outcome => .ended (.ofTraced (outcome, after))
      | none => .going (ofTraced cursor index after) := by
  have rendered := render_receive sink tracing traced event
  have observed := Sink.traced_wraps sink tracing event traced
  rw [received] at rendered observed
  rw [← rendered, deliver, observed]
  rfl

/-- An event that has no entry in the trace is only handed on. -/
theorem deliver_ofTraced {traced after : Traced σ} {event : Event} {answer : Answer}
    (untraced : TraceEntry.ofEvent? event = none)
    (received : (sink.traced tracing).receive event traced = (answer, after)) (cursor : Cursor)
    (index : Nat) :
    deliver sink event (ofTraced cursor index traced) =
      match answer.refusal? event with
      | some outcome => .ended (.ofTraced (outcome, after))
      | none => .going (ofTraced cursor index after) := by
  have nothing : traced.render = traced.render ++ written tracing event := by
    simp [written, untraced]
  rw [← deliver_written sink tracing received, ofTraced, ← nothing]

/-- What goes on behind an event is what the sink is offered behind it, unless it refuses. -/
theorem proceed_deliver {ending : Outcome} {event : Event} {later : List Event} {cursor : Cursor}
    {index : Nat}
    (goesOn : ∀ after, run sink tracing bytes (ofTraced cursor index after) =
      .ok (.ofTraced ((sink.traced tracing).offer ending later after))) :
    (deliver sink event ⟨cursor, index, traced.state,
        traced.render ++ written tracing event⟩).proceed sink tracing bytes =
      .ok (.ofTraced ((sink.traced tracing).offer ending (event :: later) traced)) := by
  cases received : (sink.traced tracing).receive event traced with
  | mk answer after =>
    rw [deliver_written sink tracing received, Sink.offer_cons received]
    cases answer.refusal? event with
    | some outcome => rfl
    | none => exact goesOn after

theorem traceText_of_read (framed : Frame.read offset index first rest = .ok (frame, form))
    (parsed : frame.instruction form = .ok inst) (here : bytes.drop offset = first.bytes ++ rest) :
    traceText tracing bytes frame inst = .ok (written tracing (.instruction frame inst)) := by
  obtain ⟨whole, known, isFrame⟩ := Frame.whole_of_read framed
  have there : bytes.drop frame.offset =
      frame.first.bytes ++ frame.window ++ rest.drop (4 * (frame.wordCount - 1)) := by
    rw [isFrame, here, List.append_assoc]
    exact congrArg _ (List.take_append_drop _ _).symm
  cases tracing with
  | false => rfl
  | true => exact traceLine_eq (Frame.holds_of_instruction whole known parsed) there

/-- Where a word is left, a step neither misses it nor throws anything else. -/
theorem step_word (index : Nat) (here : bytes.drop offset = first.bytes ++ rest) :
    step sink tracing bytes (ofTraced ⟨first.bytes ++ rest, offset, none, .little⟩ index traced) =
      .ok (match Frame.read offset index first rest with
        | .error outcome => .ended (.ofTraced (outcome, traced))
        | .ok (frame, form) =>
          match frame.instruction form with
          | .error misfit => .ended (.ofTraced (frame.outcomeOf misfit, traced))
          | .ok inst =>
            deliver sink (.instruction frame inst)
              ⟨⟨rest.drop (4 * (frame.wordCount - 1)), offset + 4 * frame.wordCount, none, .little⟩,
                index + 1, traced.state,
                traced.render ++ written tracing (.instruction frame inst)⟩) := by
  rw [step, ofTraced, Attempt.word_of_bytes]
  dsimp only [bind, Except.bind]
  cases framed : Frame.read offset index first rest with
  | error outcome => rfl
  | ok read =>
    obtain ⟨frame, form⟩ := read
    have attempted := Frame.attempt_of_read framed
    dsimp only
    cases parsed : frame.instruction form with
    | error misfit =>
      rw [attempted, parsed]
      rfl
    | ok inst =>
      have text := traceText_of_read tracing framed parsed here
      rw [attempted, parsed]
      dsimp only [Except.map]
      rw [text]
      rfl

/-- Over what stands in the bytes, the machine does what a traced sink is offered. -/
theorem run_of_scan {entries : List Framed} {ending : Option Outcome}
    (scan : Scan offset index rest entries ending) (here : bytes.drop offset = rest) :
    run sink tracing bytes (ofTraced ⟨rest, offset, none, .little⟩ index traced) =
      .ok (.ofTraced ((sink.traced tracing).offer (ending.getD (.ofState .complete))
        (entries.map Framed.event ++ closing ending) traced)) := by
  have long (first : Word) (rest : Bytes) (offset index : Nat) (traced : Traced σ) :
      4 ≤ Cursor.bytesLeft
        (ofTraced ⟨first.bytes ++ rest, offset, none, .little⟩ index traced).cursor := by
    simp [ofTraced, Cursor.bytesLeft]
  -- The cursor is without a limit at the start of each instruction: that is what a step hands on to
  -- the next one, and what keeps the first word from being refused.
  induction scan generalizing traced with
  | @halt offset index rest ending halt =>
    cases halt with
    | finished ragged =>
      have short : (ofTraced ⟨rest, offset, none, .little⟩ index traced).cursor.bytesLeft < 4 :=
        ragged
      cases received : (sink.traced tracing).receive .finish traced with
      | mk answer after =>
        rw [run, if_pos short, deliver_ofTraced sink tracing rfl received]
        refine Eq.trans ?_ (congrArg (fun result => Except.ok (Report.ofTraced result))
          (Sink.offer_cons received _ [])).symm
        cases answer.refusal? .finish <;> rfl
    | unframed refused =>
      have stepped := step_word sink tracing traced index here
      rw [refused] at stepped
      exact run_of_step (long _ _ _ _ _) stepped
    | misfit framed failed =>
      have stepped := step_word sink tracing traced index here
      simp only [framed, failed] at stepped
      exact run_of_step (long _ _ _ _ _) stepped
  | @instruction offset index first rest frame form inst entries ending framed parsed others
      inductionHypothesis =>
    have stepped := step_word sink tracing traced index here
    simp only [framed, parsed] at stepped
    have behind := Frame.drop_behind framed here
    refine (run_of_step (long _ _ _ _ _) stepped).trans ?_
    apply proceed_deliver
    intro after
    exact inductionHypothesis after behind

end Machine

theorem Header.attempt_eq (bytes : Bytes) :
    Header.attempt bytes = .ok ((Header.parse bytes).map fun read =>
      (read.1, ⟨read.2, byteCount, none, .little⟩)) := by
  by_cases short : bytes.length < byteCount
  · rw [attempt, Attempt.read, nextWords_of_short short, parse_of_short short]
    rfl
  · obtain ⟨header, rest, rfl⟩ := exists_words (Nat.le_of_not_lt short)
    rw [attempt, Attempt.read, nextWords_words, parse_words]
    dsimp only [words]
    by_cases isMagic : header.magic = magicNumber
    · rw [if_pos isMagic, if_pos isMagic]
      rfl
    · rw [if_neg isMagic, if_neg isMagic]
      split <;> rfl

variable (sink : Sink σ) (tracing : Bool) (traced : Traced σ)

theorem Machine.attemptModule_of_headless {bytes : Bytes} {outcome : Outcome}
    (refused : Header.parse bytes = .error outcome) (cursor : Cursor) :
    attemptModule sink tracing bytes (ofTraced cursor 1 traced) =
      .ok (.ofTraced (outcome, traced)) := by
  rw [attemptModule, Header.attempt_eq, refused]
  rfl

theorem Machine.attemptModule_of_opened {bytes : Bytes} {header : Header} {entries : List Framed}
    {ending : Option Outcome} (parsed : Header.parse bytes = .ok (header, rest))
    (scan : Scan Header.byteCount 1 rest entries ending) (cursor : Cursor) :
    attemptModule sink tracing bytes (ofTraced cursor 1 traced) =
      .ok (.ofTraced ((sink.traced tracing).offer (ending.getD (.ofState .complete))
        (.header header :: (entries.map Framed.event ++ closing ending)) traced)) := by
  have text : (if tracing then (TraceEntry.header header).render else []) =
      written tracing (.header header) := by
    cases tracing <;> rfl
  have behind : bytes.drop Header.byteCount = rest := (Header.take_drop_of_parse parsed).2
  rw [attemptModule, Header.attempt_eq, parsed]
  dsimp only [Except.map, bind, Except.bind, ofTraced]
  rw [text]
  apply proceed_deliver
  intro headed
  exact run_of_scan sink tracing headed scan behind

end Agreement

/-- Whatever the bytes, the sink and the verbosity are, nothing is ever thrown out of a parse. -/
theorem parse_returns (sink : Sink σ) (state : σ) (verbosity : Int) (bytes : Bytes) :
    attemptParse sink state verbosity bytes =
      .ok (.ofTraced (parseVerbosely sink state verbosity bytes)) := by
  obtain ⟨events, ending, offers⟩ := exists_offers bytes
  rw [attemptParse, parseVerbosely, parse_of_offers _ _ offers]
  generalize decide (1 < verbosity) = tracing
  cases started : (sink.traced tracing).receive .start ⟨state, #[]⟩ with
  | mk answer after =>
    have delivered : Machine.deliver sink .start ⟨.ofBytes bytes .little, 1, state, []⟩ = _ :=
      Machine.deliver_ofTraced sink tracing rfl started _ _
    rw [delivered]
    cases offers with
    | headless refused =>
      rw [Sink.offer_cons started]
      cases answer.refusal? .start with
      | some outcome => rfl
      | none => exact Machine.attemptModule_of_headless sink tracing after refused _
    | opened parsed scan =>
      rw [moduleEvents, Sink.offer_cons started]
      cases answer.refusal? .start with
      | some outcome => rfl
      | none => exact Machine.attemptModule_of_opened sink tracing after parsed scan _

end SpirvInspector
