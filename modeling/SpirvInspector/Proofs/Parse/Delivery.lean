import SpirvInspector.Proofs.Parse.Scan

/-!
# Delivery to a sink

What a byte string has to offer is a list of events and the outcome behind them. Parsing hands the
events to the sink one by one: the first one that is refused decides about the outcome, and the
outcome of the bytes stands if none is.
-/

set_option autoImplicit false

namespace SpirvInspector

variable {σ : Type}

namespace Event

/-- Where a refusal of an event is located. -/
def offset : Event → Nat
  | instruction frame _ => frame.offset
  | _ => 0

def index : Event → Nat
  | instruction frame _ => frame.index
  | _ => 0

end Event

namespace Answer

/-- The outcome of a parse that ends with this answer to an event. -/
def refusal? (answer : Answer) (event : Event) : Option Outcome :=
  answer.outcome?.map fun outcome =>
    { outcome with offset := event.offset, index := event.index }

end Answer

namespace Sink

/-- Hands events to a sink until it refuses one. -/
def offer (sink : Sink σ) (ending : Outcome) : List Event → σ → Outcome × σ
  | [], state => (ending, state)
  | event :: later, state =>
    match sink.receive event state with
    | (answer, state) =>
      match answer.refusal? event with
      | some outcome => (outcome, state)
      | none => sink.offer ending later state

theorem offer_cons {sink : Sink σ} {event : Event} {state after : σ} {answer : Answer}
    (received : sink.receive event state = (answer, after)) (ending : Outcome)
    (later : List Event) :
    sink.offer ending (event :: later) state =
      match answer.refusal? event with
      | some outcome => (outcome, after)
      | none => sink.offer ending later after := by
  rw [offer, received]

theorem offer_recorder (ending : Outcome) (events : List Event) (earlier : Array Event) :
    (recorder none).offer ending events earlier = (ending, earlier ++ events) := by
  induction events generalizing earlier with
  | nil => simp [offer]
  | cons event later inductionHypothesis =>
    have kept : (recorder none).offer ending (event :: later) earlier =
        (recorder none).offer ending later (earlier.push event) := rfl
    rw [kept, inductionHypothesis]
    simp

end Sink

/-- The last event of a module, which is left out where an outcome ends the module early. -/
def closing : Option Outcome → List Event
  | none => [.finish]
  | some _ => []

def moduleEvents (header : Header) (entries : List Framed) (ending : Option Outcome) : List Event :=
  .start :: .header header :: (entries.map Framed.event ++ closing ending)

/-- The events that bytes have to offer, and the outcome behind them. -/
inductive Offers (bytes : Bytes) : List Event → Outcome → Prop
  | headless {outcome : Outcome} (refused : Header.parse bytes = .error outcome) :
      Offers bytes [.start] outcome
  | opened {header : Header} {rest : Bytes} {entries : List Framed} {ending : Option Outcome}
      (parsed : Header.parse bytes = .ok (header, rest))
      (scan : Scan Header.byteCount 1 rest entries ending) :
      Offers bytes (moduleEvents header entries ending) (ending.getD (.ofState .complete))

theorem exists_offers (bytes : Bytes) : ∃ events ending, Offers bytes events ending := by
  cases parsed : Header.parse bytes with
  | error outcome => exact ⟨_, _, .headless parsed⟩
  | ok read =>
    obtain ⟨entries, ending, scan⟩ := exists_scan Header.byteCount 1 read.2
    exact ⟨_, _, .opened parsed scan⟩

namespace Parser

variable {offset index : Nat}

theorem instructions_skip (sink : Sink σ) (state : σ) (skip : Nat) (bytes : Bytes) :
    instructions sink state offset index skip bytes =
      instructions sink state offset index 0 (bytes.drop skip) := by
  induction bytes generalizing skip with
  | nil => cases skip <;> simp [instructions]
  | cons byte rest inductionHypothesis =>
    cases skip with
    | zero => rfl
    | succ skip =>
      rw [instructions, inductionHypothesis]
      rfl

theorem instructions_of_ragged (sink : Sink σ) (state : σ) {bytes : Bytes}
    (ragged : bytes.length < 4) :
    instructions sink state offset index 0 bytes = finish sink state := by
  match bytes with
  | [] | [_] | [_, _] | [_, _, _] => rfl
  | _ :: _ :: _ :: _ :: _ =>
    simp at ragged
    omega

theorem instructions_word (sink : Sink σ) (state : σ) (first : Word) (rest : Bytes) :
    instructions sink state offset index 0 (first.bytes ++ rest) =
      match Frame.read offset index first rest with
      | .error outcome => (outcome, state)
      | .ok (frame, form) =>
        match frame.instruction form with
        | .error misfit => (frame.outcomeOf misfit, state)
        | .ok inst =>
          match sink.receive (.instruction frame inst) state with
          | (.proceed, state) =>
            instructions sink state (offset + 4 * frame.wordCount) (index + 1) 0
              (rest.drop (4 * (frame.wordCount - 1)))
          | (.stop, state) => (.located .consumerStopRequested offset index, state)
          | (.error reason, state) =>
            ({ Outcome.located .consumerError offset index with reason }, state) := by
  obtain ⟨a, b, c, d, bytes, stands⟩ := first.exists_bytes
  rw [bytes, List.cons_append, List.cons_append, List.cons_append, List.cons_append,
    List.nil_append, instructions, stands]
  cases Frame.read offset index first rest with
  | error outcome => rfl
  | ok read =>
    obtain ⟨frame, form⟩ := read
    dsimp only
    cases frame.instruction form with
    | error misfit => rfl
    | ok inst =>
      dsimp only
      cases sink.receive (.instruction frame inst) state with
      | mk answer after =>
        cases answer with
        | proceed => exact instructions_skip sink after _ rest
        | stop => rfl
        | error reason => rfl

theorem instructions_of_scan (sink : Sink σ) (state : σ) {bytes : Bytes} {entries : List Framed}
    {ending : Option Outcome} (scan : Scan offset index bytes entries ending) :
    instructions sink state offset index 0 bytes =
      sink.offer (ending.getD (.ofState .complete)) (entries.map Framed.event ++ closing ending)
        state := by
  induction scan generalizing state with
  | halt halt =>
    cases halt with
    | finished ragged =>
      rw [instructions_of_ragged sink state ragged, finish]
      cases received : sink.receive .finish state with
      | mk answer after =>
        refine Eq.trans ?_ (Sink.offer_cons received _ []).symm
        cases answer <;> rfl
    | unframed refused => simp [instructions_word, refused, Sink.offer, closing]
    | misfit framed failed => simp [instructions_word, framed, failed, Sink.offer, closing]
  | @instruction offset index first rest frame form inst entries ending framed parsed others
      inductionHypothesis =>
    obtain ⟨-, -, isFrame⟩ := Frame.whole_of_read framed
    cases received : sink.receive (.instruction frame inst) state with
    | mk answer after =>
      refine Eq.trans ?_ (Sink.offer_cons received _ _).symm
      simp only [instructions_word, framed, parsed, received]
      cases answer with
      | proceed => exact inductionHypothesis after
      | stop =>
        rw [isFrame]
        rfl
      | error reason =>
        rw [isFrame]
        rfl

end Parser

/-- Parsing delivers what the bytes have to offer, whoever the sink is. -/
theorem parse_of_offers (sink : Sink σ) (state : σ) {bytes : Bytes} {events : List Event}
    {ending : Outcome} (offers : Offers bytes events ending) :
    parse sink state bytes = sink.offer ending events state := by
  cases started : sink.receive .start state with
  | mk answer after =>
    cases offers with
    | headless refused =>
      rw [Sink.offer_cons started]
      simp only [parse, started, refused]
      cases answer <;> rfl
    | @opened header rest entries ending parsed scan =>
      rw [moduleEvents, Sink.offer_cons started]
      cases accepted : sink.receive (.header header) after with
      | mk headerAnswer headed =>
        rw [Sink.offer_cons accepted, ← Parser.instructions_of_scan sink headed scan]
        simp only [parse, started, parsed, accepted]
        cases answer <;> cases headerAnswer <;> rfl

/-- The outcome of a parse in which nothing is refused. -/
def verdict (bytes : Bytes) : Outcome :=
  (parse (.recorder none) #[] bytes).1

/-- All that is delivered in a parse in which nothing is refused. -/
def transcript (bytes : Bytes) : List Event :=
  (parse (.recorder none) #[] bytes).2.toList

namespace Offers

variable {bytes : Bytes} {events : List Event} {ending : Outcome}

theorem verdict_eq (offers : Offers bytes events ending) : verdict bytes = ending := by
  rw [verdict, parse_of_offers _ _ offers, Sink.offer_recorder]

theorem transcript_eq (offers : Offers bytes events ending) : transcript bytes = events := by
  rw [transcript, parse_of_offers _ _ offers, Sink.offer_recorder]
  simp

/-- Behind the events of a whole module stands success, and behind others what is malformed. -/
theorem complete_or_malformed (offers : Offers bytes events ending) :
    (ending = .ofState .complete ∧ ∃ header rest entries,
      Header.parse bytes = .ok (header, rest) ∧ Scan Header.byteCount 1 rest entries none ∧
        events = moduleEvents header entries none) ∨
    (ending.state.isMalformed = true ∧ .finish ∉ events) := by
  cases offers with
  | headless refused => exact .inr ⟨Header.isMalformed_of_parse refused, by simp⟩
  | @opened header rest entries ending parsed scan =>
    cases ending with
    | none => exact .inl ⟨rfl, header, rest, entries, parsed, scan, rfl⟩
    | some outcome =>
      obtain ⟨-, halt⟩ := scan.laid (Header.take_drop_of_parse parsed).2
      exact .inr ⟨ParseState.isMalformed_of_mem _ halt.state_mem,
        by simp [moduleEvents, closing, Framed.event]⟩

end Offers

end SpirvInspector
