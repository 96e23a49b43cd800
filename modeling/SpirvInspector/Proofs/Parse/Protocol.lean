import SpirvInspector.Proofs.Parse.Delivery

/-!
# The protocol between the parser and a sink

Whatever a sink does, it is called in the order of a module and never again once it has refused an
event. Its last answer decides whether the outcome is its own or that of the bytes.
-/

set_option autoImplicit false

namespace SpirvInspector

variable {σ : Type}

/-- An event that a sink was called with, and what it answered. -/
structure Call where
  event : Event
  answer : Answer
deriving DecidableEq, Repr

namespace Call

def proceeding (event : Event) : Call :=
  ⟨event, .proceed⟩

end Call

namespace Event

def framed? : Event → Option Framed
  | instruction frame inst => some (frame, inst)
  | _ => none

end Event

/-- `Heard ending events calls outcome`: the calls that come of offering events to a sink, up to the
one it refuses. -/
inductive Heard (ending : Outcome) : List Event → List Call → Outcome → Prop
  | all : Heard ending [] [] ending
  | refused {event : Event} {later : List Event} {answer : Answer} {outcome : Outcome}
      (refused : answer.refusal? event = some outcome) :
      Heard ending (event :: later) [⟨event, answer⟩] outcome
  | proceeded {event : Event} {later : List Event} {calls : List Call} {outcome : Outcome}
      (others : Heard ending later calls outcome) :
      Heard ending (event :: later) (.proceeding event :: calls) outcome

namespace Heard

variable {ending outcome : Outcome} {events : List Event} {calls : List Call}

theorem accepted_or_refused (heard : Heard ending events calls outcome) :
    (calls = events.map .proceeding ∧ outcome = ending) ∨
    ∃ before event later answer, events = before ++ event :: later ∧
      calls = before.map .proceeding ++ [⟨event, answer⟩] ∧
      answer.refusal? event = some outcome := by
  induction heard with
  | all => exact .inl ⟨rfl, rfl⟩
  | @refused event later answer outcome refused =>
    exact .inr ⟨[], event, later, answer, rfl, rfl, refused⟩
  | @proceeded event later calls outcome others inductionHypothesis =>
    rcases inductionHypothesis with
      ⟨rfl, rfl⟩ | ⟨before, refusedEvent, rest, answer, rfl, rfl, refused⟩
    · exact .inl ⟨rfl, rfl⟩
    · exact .inr ⟨event :: before, refusedEvent, rest, answer, rfl, rfl, refused⟩

/-- The calls are some of the first events that are on offer. -/
theorem map_event_prefix (heard : Heard ending events calls outcome) :
    calls.map Call.event <+: events := by
  induction heard with
  | all => exact List.prefix_refl []
  | @refused event later answer outcome refused => exact ⟨later, rfl⟩
  | @proceeded event later calls outcome others inductionHypothesis =>
    exact (List.prefix_cons_inj event).mpr inductionHypothesis

end Heard

namespace Sink

/-- Passes every event on, and keeps it with the answer. -/
def logged (sink : Sink σ) : Sink (σ × List Call) where
  receive event log :=
    match sink.receive event log.1 with
    | (answer, state) => (answer, (state, log.2 ++ [⟨event, answer⟩]))

/-- Logging changes nothing for the sink, and the log holds what the sink has heard. -/
theorem offer_logged (sink : Sink σ) (ending : Outcome) (events : List Event) (state : σ)
    (earlier : List Call) :
    ∃ calls, Heard ending events calls (sink.offer ending events state).1 ∧
      sink.logged.offer ending events (state, earlier) =
        ((sink.offer ending events state).1,
          ((sink.offer ending events state).2, earlier ++ calls)) := by
  induction events generalizing state earlier with
  | nil => exact ⟨[], .all, by simp [offer]⟩
  | cons event later inductionHypothesis =>
    cases received : sink.receive event state with
    | mk answer after =>
      have logged : sink.logged.receive event (state, earlier) =
          (answer, (after, earlier ++ [⟨event, answer⟩])) := by
        simp only [Sink.logged, received]
      rw [offer_cons received, offer_cons logged]
      cases refused : answer.refusal? event with
      | some outcome => exact ⟨_, .refused refused, rfl⟩
      | none =>
        obtain ⟨calls, heard, log⟩ := inductionHypothesis after (earlier ++ [⟨event, answer⟩])
        have proceeds : answer = .proceed := by
          cases answer with
          | proceed => rfl
          | stop => cases refused
          | error reason => cases refused
        subst proceeds
        exact ⟨_, .proceeded heard, by simpa [Call.proceeding] using log⟩

end Sink

namespace Offers

variable {bytes : Bytes} {events : List Event} {ending : Outcome}

theorem ne_nil (offers : Offers bytes events ending) : events ≠ [] := by
  cases offers <;> simp [moduleEvents]

theorem ordered (offers : Offers bytes events ending) :
    ∃ header entries, events <+: moduleEvents header entries none := by
  cases offers with
  | headless refused => exact ⟨⟨0, 0, 0, 0, 0⟩, [], by simp [moduleEvents]⟩
  | @opened header rest entries ending parsed scan =>
    refine ⟨header, entries, ?_⟩
    cases ending <;> simp [moduleEvents, closing]

theorem state_eq_complete_iff (offers : Offers bytes events ending) :
    ending.state = .complete ↔ .finish ∈ events := by
  rcases offers.complete_or_malformed with
    ⟨rfl, header, rest, entries, -, -, rfl⟩ | ⟨malformed, notIn⟩
  · simp [Outcome.ofState, moduleEvents, closing]
  · apply iff_of_false _ notIn
    intro complete
    rw [complete] at malformed
    cases malformed

/-- The bytes alone do not give an outcome that is for a sink to give. -/
theorem state_ne (offers : Offers bytes events ending) :
    ending.state ≠ .consumerStopRequested ∧ ending.state ≠ .consumerError := by
  rcases offers.complete_or_malformed with ⟨rfl, -⟩ | ⟨malformed, -⟩
  · simp [Outcome.ofState]
  · constructor <;> (intro decided; rw [decided] at malformed; cases malformed)

theorem finish_notMem_dropLast (offers : Offers bytes events ending) :
    .finish ∉ events.dropLast := by
  cases offers with
  | headless refused => simp
  | @opened header rest entries ending parsed scan =>
    have before : .finish ∉ .start :: .header header :: entries.map Framed.event := by
      simp [Framed.event]
    cases ending with
    | none =>
      rw [moduleEvents, closing, ← List.cons_append, ← List.cons_append, List.dropLast_concat]
      exact before
    | some outcome =>
      intro isIn
      exact before (by simpa [moduleEvents, closing] using List.dropLast_subset _ isIn)

theorem laid (offers : Offers bytes events ending) :
    Laid bytes Header.byteCount 1 (events.filterMap Event.framed?) := by
  cases offers with
  | headless refused => exact .nil
  | @opened header rest entries ending parsed scan =>
    obtain ⟨laid, -⟩ := scan.laid (Header.take_drop_of_parse parsed).2
    have instructions : (entries.map Framed.event).filterMap Event.framed? = entries := by
      rw [List.filterMap_map]
      exact List.filterMap_some
    have found : (moduleEvents header entries ending).filterMap Event.framed? = entries := by
      change (entries.map Framed.event ++ closing ending).filterMap Event.framed? = entries
      rw [List.filterMap_append, instructions]
      cases ending <;> exact List.append_nil entries
    rw [found]
    exact laid

end Offers

theorem Laid.of_append {bytes : Bytes} {offset index : Nat} {front back : List Framed}
    (laid : Laid bytes offset index (front ++ back)) : Laid bytes offset index front := by
  induction front generalizing offset index with
  | nil => exact .nil
  | cons entry front inductionHypothesis =>
    cases laid with
    | cons holds there others => exact .cons holds there (inductionHypothesis others)

/-- What holds of the calls of a parse and of its outcome. -/
structure Session (bytes : Bytes) (calls : List Call) (outcome : Outcome) : Prop where
  /-- The start comes first, then the header, then instructions, and then the finish. -/
  ordered : ∃ header entries, calls.map Call.event <+: moduleEvents header entries none
  started : calls ≠ []
  /-- Nothing follows a refusal. -/
  obeyed : ∀ call ∈ calls.dropLast, call.answer = .proceed
  stopped : outcome.state = .consumerStopRequested ↔
    ∃ event, calls.getLast? = some ⟨event, .stop⟩
  failed : ∀ reason, outcome.state = .consumerError ∧ outcome.reason = reason ↔
    ∃ event, calls.getLast? = some ⟨event, .error reason⟩
  located : ∀ call, calls.getLast? = some call → call.answer ≠ .proceed →
    outcome.offset = call.event.offset ∧ outcome.index = call.event.index
  /-- The instructions stand in the bytes where their frames say. -/
  placed : Laid bytes Header.byteCount 1 (calls.filterMap fun call => call.event.framed?)
  completed : outcome.state = .complete ↔ .proceeding .finish ∈ calls
  /-- A sink that refuses nothing would have heard this and perhaps more. -/
  foreseen : calls.map Call.event <+: transcript bytes

theorem session_of_accepted {bytes : Bytes} {events : List Event} {ending : Outcome}
    (offers : Offers bytes events ending) :
    Session bytes (events.map .proceeding) ending := by
  have heard : (events.map Call.proceeding).map Call.event = events := by
    simp [Function.comp_def, Call.proceeding]
  have lastProceeds (call : Call) (isLast : (events.map Call.proceeding).getLast? = some call) :
      call.answer = .proceed := by
    obtain ⟨event, -, rfl⟩ := List.mem_map.mp (List.mem_of_getLast? isLast)
    rfl
  obtain ⟨notStopped, notFailed⟩ := offers.state_ne
  constructor
  case ordered =>
    rw [heard]
    exact offers.ordered
  case started => simpa using offers.ne_nil
  case obeyed =>
    intro call isIn
    obtain ⟨event, -, rfl⟩ := List.mem_map.mp (List.dropLast_subset _ isIn)
    rfl
  case stopped =>
    constructor
    · intro stopped
      exact (notStopped stopped).elim
    · rintro ⟨event, isLast⟩
      cases lastProceeds _ isLast
  case failed =>
    intro reason
    constructor
    · rintro ⟨failed, -⟩
      exact (notFailed failed).elim
    · rintro ⟨event, isLast⟩
      cases lastProceeds _ isLast
  case located =>
    intro call isLast refused
    exact (refused (lastProceeds call isLast)).elim
  case placed =>
    have found : (events.map Call.proceeding).filterMap (fun call => call.event.framed?) =
        events.filterMap Event.framed? := by
      rw [List.filterMap_map]
      rfl
    rw [found]
    exact offers.laid
  case completed =>
    rw [offers.state_eq_complete_iff]
    simp [Call.proceeding]
  case foreseen =>
    rw [heard]
    exact ⟨[], by rw [List.append_nil, offers.transcript_eq]⟩

theorem session_of_refused {bytes : Bytes} {before later : List Event} {event : Event}
    {answer : Answer} {ending outcome : Outcome}
    (offers : Offers bytes (before ++ event :: later) ending)
    (refused : answer.refusal? event = some outcome) :
    Session bytes (before.map Call.proceeding ++ [⟨event, answer⟩]) outcome := by
  have heard : (before.map Call.proceeding ++ [Call.mk event answer]).map Call.event =
      before ++ [event] := by
    simp [Function.comp_def, Call.proceeding]
  have foreseen : before ++ [event] <+: before ++ event :: later := by
    simp
  have isLast : (before.map Call.proceeding ++ [Call.mk event answer]).getLast? =
      some ⟨event, answer⟩ := List.getLast?_concat
  constructor
  case ordered =>
    obtain ⟨header, entries, ordered⟩ := offers.ordered
    exact ⟨header, entries, heard ▸ foreseen.trans ordered⟩
  case started => simp
  case obeyed =>
    intro call isIn
    rw [List.dropLast_concat] at isIn
    obtain ⟨event, -, rfl⟩ := List.mem_map.mp isIn
    rfl
  case stopped =>
    rw [isLast]
    cases answer <;> cases refused <;> simp [Outcome.ofState]
  case failed =>
    rw [isLast]
    cases answer <;> cases refused <;> simp [Outcome.ofState]
  case located =>
    rw [isLast]
    cases answer <;> cases refused <;> simp
  case placed =>
    have found : (before.map Call.proceeding ++ [Call.mk event answer]).filterMap
        (fun call => call.event.framed?) = (before ++ [event]).filterMap Event.framed? := by
      rw [← heard, List.filterMap_map]
      rfl
    have laid := offers.laid
    rw [List.append_cons, List.filterMap_append] at laid
    rw [found]
    exact laid.of_append
  case completed =>
    apply iff_of_false
    · cases answer <;> cases refused <;> simp [Outcome.ofState]
    · -- The finish is the last event there is, so it does not come before the one refused.
      intro isIn
      rcases List.mem_append.mp isIn with isBefore | isHere
      · obtain ⟨finishing, isFinish, same⟩ := List.mem_map.mp isBefore
        cases same
        have early : .finish ∈ (before ++ event :: later).dropLast := by
          rw [List.dropLast_append_cons]
          exact List.mem_append_left _ isFinish
        exact offers.finish_notMem_dropLast early
      · cases List.mem_singleton.mp isHere
        cases refused
  case foreseen =>
    rw [heard, offers.transcript_eq]
    exact foreseen

/-- Every parse keeps to the protocol, whatever the sink is and whatever it does. -/
theorem parse_session (sink : Sink σ) (state : σ) (bytes : Bytes) :
    ∃ calls, parse sink.logged (state, []) bytes =
        ((parse sink state bytes).1, ((parse sink state bytes).2, calls)) ∧
      Session bytes calls (parse sink state bytes).1 := by
  obtain ⟨events, ending, offers⟩ := exists_offers bytes
  obtain ⟨calls, heard, log⟩ := sink.offer_logged ending events state []
  rw [parse_of_offers _ _ offers, parse_of_offers _ _ offers]
  refine ⟨calls, log, ?_⟩
  rcases heard.accepted_or_refused with
    ⟨rfl, isEnding⟩ | ⟨before, event, later, answer, rfl, rfl, refused⟩
  · rw [isEnding]
    exact session_of_accepted offers
  · exact session_of_refused offers refused

end SpirvInspector
