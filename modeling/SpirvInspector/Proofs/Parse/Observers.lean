import SpirvInspector.Parse.Trace
import SpirvInspector.Proofs.Parse.Protocol

/-!
# Calling and observing sinks

A sink can be called directly, with events in any order and whatever it answers. During a parse it
can be observed by a sink around it, which passes every event on and does nothing else to it.
-/

set_option autoImplicit false

namespace SpirvInspector

variable {σ τ : Type}

theorem Answer.refusal?_eq_none_iff {answer : Answer} {event : Event} :
    answer.refusal? event = none ↔ answer = .proceed := by
  cases answer <;> simp [refusal?, outcome?]

namespace Sink

/-- Calls a sink with events one after the other, whatever it answers. -/
def callAll (sink : Sink σ) : List Event → σ → List Call × σ
  | [], state => ([], state)
  | event :: later, state =>
    let reply := sink.receive event state
    let others := sink.callAll later reply.2
    (⟨event, reply.1⟩ :: others.1, others.2)

/-- What holds at first and is kept by every event holds wherever an offer ends. -/
theorem offer_induction {sink : Sink σ} (holds : σ → Prop) {events : List Event}
    (kept : ∀ event ∈ events, ∀ state, holds state → holds (sink.receive event state).2)
    (ending : Outcome) {state : σ} (atFirst : holds state) :
    holds (sink.offer ending events state).2 := by
  induction events generalizing state with
  | nil => exact atFirst
  | cons event later inductionHypothesis =>
    have heldBehind := kept event List.mem_cons_self state atFirst
    rw [offer_cons (Prod.eta _).symm]
    cases (sink.receive event state).1.refusal? event with
    | some outcome => exact heldBehind
    | none =>
      apply inductionHypothesis _ heldBehind
      intro other isLater
      exact kept other (List.mem_cons_of_mem _ isLater)

/-- `outer.Wraps inner view`: seen through `view`, the outer sink does what the inner one does. -/
def Wraps (outer : Sink τ) (inner : Sink σ) (view : τ → σ) : Prop :=
  ∀ event state, inner.receive event (view state) =
    ((outer.receive event state).1, view (outer.receive event state).2)

namespace Wraps

variable {outer : Sink τ} {inner : Sink σ} {view : τ → σ}

theorem offer (wraps : outer.Wraps inner view) (ending : Outcome) (events : List Event)
    (state : τ) :
    inner.offer ending events (view state) =
      ((outer.offer ending events state).1, view (outer.offer ending events state).2) := by
  induction events generalizing state with
  | nil => rfl
  | cons event later inductionHypothesis =>
    rw [offer_cons (wraps event state), offer_cons (Prod.eta _).symm]
    cases (outer.receive event state).1.refusal? event with
    | some outcome => rfl
    | none => exact inductionHypothesis _

theorem parse (wraps : outer.Wraps inner view) (state : τ) (bytes : Bytes) :
    SpirvInspector.parse inner (view state) bytes =
      ((SpirvInspector.parse outer state bytes).1,
        view (SpirvInspector.parse outer state bytes).2) := by
  obtain ⟨events, ending, offers⟩ := exists_offers bytes
  rw [parse_of_offers _ _ offers, parse_of_offers _ _ offers]
  exact wraps.offer ending events state

end Wraps

theorem traced_wraps (sink : Sink σ) (tracing : Bool) :
    (sink.traced tracing).Wraps sink Traced.state := by
  intro event state
  rfl

/-- Passes every event on, and keeps each instruction with the state that it leads to. -/
def filmed (sink : Sink σ) : Sink (σ × List (Framed × σ)) where
  receive event film :=
    match sink.receive event film.1 with
    | (answer, state) =>
      (answer, (state, film.2 ++ (event.framed?.map fun entry => (entry, state)).toList))

theorem filmed_wraps (sink : Sink σ) : sink.filmed.Wraps sink Prod.fst := by
  intro event state
  rfl

/-- The instructions that a sink is called with, each with the state that it leads to. -/
def snapshots (sink : Sink σ) : List Framed → σ → List (Framed × σ)
  | [], _ => []
  | entry :: later, state =>
    match sink.receive entry.event state with
    | (answer, after) =>
      (entry, after) :: if answer = .proceed then sink.snapshots later after else []

theorem snapshots_cons (sink : Sink σ) (entry : Framed) (later : List Framed) (state : σ) :
    sink.snapshots (entry :: later) state =
      (entry, (sink.receive entry.event state).2) ::
        if (sink.receive entry.event state).1 = .proceed then
          sink.snapshots later (sink.receive entry.event state).2
        else [] := rfl

theorem map_fst_snapshots_prefix (sink : Sink σ) (entries : List Framed) (state : σ) :
    (sink.snapshots entries state).map Prod.fst <+: entries := by
  induction entries generalizing state with
  | nil => exact List.prefix_refl []
  | cons entry later inductionHypothesis =>
    rw [snapshots_cons, List.map_cons, List.prefix_cons_inj]
    split
    · exact inductionHypothesis _
    · exact List.nil_prefix

/-- The film of a parse shows the instructions up to the one that is refused. -/
theorem film_offer (sink : Sink σ) (ending : Outcome) (entries : List Framed)
    (halted : Option Outcome) (state : σ) (earlier : List (Framed × σ)) :
    (sink.filmed.offer ending (entries.map Framed.event ++ closing halted) (state, earlier)).2.2 =
      earlier ++ sink.snapshots entries state := by
  induction entries generalizing state earlier with
  | nil =>
    cases halted with
    | some outcome => exact (List.append_nil earlier).symm
    | none =>
      have received : sink.filmed.receive .finish (state, earlier) =
          ((sink.receive .finish state).1, ((sink.receive .finish state).2, earlier ++ [])) := rfl
      rw [List.map_nil, List.nil_append, closing, offer_cons received]
      cases (sink.receive .finish state).1.refusal? .finish <;> rfl
  | cons entry later inductionHypothesis =>
    have received : sink.filmed.receive entry.event (state, earlier) =
        ((sink.receive entry.event state).1, ((sink.receive entry.event state).2,
          earlier ++ [(entry, (sink.receive entry.event state).2)])) := rfl
    rw [List.map_cons, List.cons_append, offer_cons received, snapshots_cons]
    cases refusal : (sink.receive entry.event state).1.refusal? entry.event with
    | none =>
      rw [if_pos (Answer.refusal?_eq_none_iff.mp refusal)]
      exact (inductionHypothesis _ _).trans (List.append_cons _ _ _).symm
    | some outcome =>
      rw [if_neg]
      intro proceeds
      rw [Answer.refusal?_eq_none_iff.mpr proceeds] at refusal
      cases refusal

end Sink

end SpirvInspector
