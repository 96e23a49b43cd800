import SpirvInspector.Proofs.Load.Agreement
import SpirvInspector.Proofs.Load.LayoutLanguage
import SpirvInspector.Proofs.Parse.RoundTrip

/-!
# Loads that complete

A load completes only if the loader has accepted every instruction and the end. Then no function is
open, and four kinds of instructions mark the shape of the functions: there are as many definitions
and ends as functions, and as many labels and terminators as blocks.
-/

set_option autoImplicit false

namespace SpirvInspector

open Opcode

variable {σ : Type}

namespace Sink

theorem callAll_append (sink : Sink σ) (front back : List Event) (state : σ) :
    sink.callAll (front ++ back) state =
      ((sink.callAll front state).1 ++ (sink.callAll back (sink.callAll front state).2).1,
        (sink.callAll back (sink.callAll front state).2).2) := by
  induction front generalizing state with
  | nil => rfl
  | cons event front inductionHypothesis =>
    rw [List.cons_append, callAll, inductionHypothesis]
    rfl

/-- An offer is complete only if the sink refuses nothing. Then the sink is left as if it had been
called directly. -/
theorem offer_of_complete {sink : Sink σ} {ending : Outcome} {events : List Event} {state : σ}
    (complete : (sink.offer ending events state).1.state = .complete) :
    sink.offer ending events state = (ending, (sink.callAll events state).2) ∧
      ∀ call ∈ (sink.callAll events state).1, call.answer = .proceed := by
  induction events generalizing state with
  | nil => exact ⟨rfl, by simp [callAll]⟩
  | cons event later inductionHypothesis =>
    rw [offer_cons (Prod.eta _).symm] at complete ⊢
    cases refused : (sink.receive event state).1.refusal? event with
    | some outcome =>
      rw [refused] at complete
      cases answer : (sink.receive event state).1 <;> rw [answer] at refused <;> cases refused <;>
        cases complete
    | none =>
      rw [refused] at complete
      obtain ⟨ended, accepted⟩ := inductionHypothesis complete
      exact ⟨ended, List.forall_mem_cons.mpr ⟨Answer.refusal?_eq_none_iff.mp refused, accepted⟩⟩

end Sink

/-- The blocks of all functions. -/
def Module.blocks (m : Module) : List Block :=
  m.functions.toList.flatMap fun function => function.blocks.toList

/-- An instruction that marks a function or a block: a function has one definition and one end, a
block one label and one terminator. -/
inductive Landmark
  | definition
  | closing
  | label
  | terminator
deriving DecidableEq, Repr

namespace Landmark

def marks (opcode : Opcode) : Landmark → Bool
  | definition => opcode == opFunction
  | closing => opcode == opFunctionEnd
  | label => opcode == opLabel
  | terminator => opcode.isTerminator

def placement : Landmark → Placement
  | definition => .function
  | closing => .functionEnd
  | label => .label
  | terminator => .terminator

theorem marks_iff {mark : Landmark} {opcode : Opcode} :
    mark.marks opcode = true ↔ opcode.placement = mark.placement := by
  have notBody : mark.placement ≠ .body := by
    cases mark <;> exact Placement.noConfusion
  rw [placement_eq_iff notBody]
  cases mark <;> simp [marks, placement, Placement.Covers]

/-- How many functions or blocks of a module have such an instruction. -/
def count (m : Module) : Landmark → Nat
  | definition | closing => m.functions.size
  | label | terminator => m.blocks.length

/-- How many of them the open function has so far. -/
def countOpen (current : Option OpenFunction) : Landmark → Nat
  | definition => current.toList.length
  | closing => 0
  | label => (current.toList.flatMap fun function =>
      function.blocks.toList ++ function.block.toList).length
  | terminator => (current.toList.flatMap fun function => function.blocks.toList).length

theorem count_file (mark : Landmark) (inst : Instruction) (m : Module) (part : Section) :
    mark.count (part.file inst m) = mark.count m := by
  cases mark <;> simp [count, Module.blocks]

/-- A section wants no instruction that marks a function. -/
theorem marks_of_wants {part : Section} {opened : Bool} {opcode : Opcode}
    (wanted : part.wants opened opcode = true) (mark : Landmark) : mark.marks opcode = false := by
  rw [← Bool.not_eq_true, marks_iff]
  intro isMark
  rcases Section.wants_iff.mp wanted with placed | ⟨-, -, placed⟩
  · rw [placed] at isMark
    cases part <;> cases mark <;> cases isMark
  · rw [placed] at isMark
    cases mark <;> cases isMark

end Landmark

theorem Grows.count {inst : Instruction} {current next : Option OpenFunction}
    {closed : Option Function} (grows : Grows inst current closed next) (mark : Landmark)
    (shelf : Module) :
    mark.count (Loader.shelve shelf closed) + mark.countOpen next =
      mark.count shelf + mark.countOpen current + if mark.marks inst.opcode then 1 else 0 := by
  have marked : mark.marks inst.opcode = decide (inst.opcode.placement = mark.placement) := by
    rw [Bool.eq_iff_iff, Landmark.marks_iff, decide_eq_true_iff]
  rw [marked]
  cases grows with
  | opens placed | closes placed | parameter placed | label placed | terminator placed =>
    cases mark <;> simp [placed, Landmark.placement, Landmark.count, Landmark.countOpen,
      Loader.shelve, Module.blocks] <;> omega
  | inner isInner =>
    have elsewhere : inst.opcode.placement ≠ mark.placement := by
      intro isMark
      rw [isMark] at isInner
      cases mark <;> cases isInner
    cases mark <;> simp [elsewhere, Landmark.count, Landmark.countOpen, Loader.shelve,
      Module.blocks]

namespace Loader

/-- How many functions or blocks of a loader have such an instruction. -/
def count (loader : Loader) (mark : Landmark) : Nat :=
  mark.count loader.shelf + mark.countOpen loader.current

theorem count_of_closed {loader : Loader} (isClosed : loader.current = none) (mark : Landmark) :
    loader.count mark = mark.count loader.module := by
  rcases loader with ⟨limit, shelf, current⟩
  cases isClosed
  cases mark <;> rfl

/-- An instruction that the layout takes in counts for what it marks, and for nothing else. -/
theorem count_of_filing {loader : Loader} {inst : Instruction} {filed : Module}
    {next : Option OpenFunction} (mark : Landmark)
    (filing : Filing (loader.noted inst).shelf loader.current inst filed next) :
    count ⟨loader.limit, filed, next⟩ mark =
      loader.count mark + if mark.marks inst.opcode then 1 else 0 := by
  have noted : mark.count (loader.noted inst).shelf = mark.count loader.shelf := by
    cases mark <;> rfl
  unfold count
  rw [← noted]
  cases filing with
  | filed wanted room => rw [Landmark.count_file, Landmark.marks_of_wants wanted]; rfl
  | grown unwanted grows => exact grows.count mark _

theorem count_of_callAll {loader final : Loader} {entries : List Framed} {calls : List Call}
    (called : sink.callAll (entries.map Framed.event) loader = (calls, final))
    (accepted : ∀ call ∈ calls, call.answer = .proceed) (mark : Landmark) :
    final.count mark =
      loader.count mark + (entries.map Prod.snd).countP fun inst => mark.marks inst.opcode := by
  induction entries generalizing loader calls with
  | nil =>
    cases called
    rfl
  | cons entry later inductionHypothesis =>
    cases called
    obtain ⟨proceeds, others⟩ := List.forall_mem_cons.mp accepted
    have added := loader.add_added entry.2
    rw [show (loader.add entry.2).1 = .proceed from proceeds] at added
    rw [inductionHypothesis rfl others, List.map_cons, List.countP_cons]
    change (loader.add entry.2).2.count mark + _ = _
    generalize (loader.add entry.2).2 = after at added
    cases added with
    | placed room filing =>
      rw [count_of_filing mark filing]
      omega

end Loader

/-- `Completed bytes entries m`: the bytes are a header and instructions up to their end, and the
module holds exactly these. -/
structure Completed (bytes : Bytes) (entries : List Framed) (m : Module) : Prop where
  headed : m.header.isSome = true
  delivered : ∃ header, transcript bytes = moduleEvents header entries none
  words : bytes.length / 4 = Header.wordCount + Framed.words entries
  instructions : m.instructions.toList = entries.map Prod.snd
  layout : m.inLayout.Perm (entries.map Prod.snd)
  landmarks : ∀ mark : Landmark,
    mark.count m = (entries.map Prod.snd).countP fun inst => mark.marks inst.opcode

namespace Loader

/-- A loader that has accepted instructions and the end holds them all, and nothing is open in
it. -/
theorem holds_of_answers (start : Loader) {entries : List Framed} (isClosed : start.current = none)
    (answers : ∀ call ∈ (sink.callAll (entries.map Framed.event ++ [.finish]) start).1,
      call.answer = .proceed) :
    start.Extends (entries.map Prod.snd)
        (sink.callAll (entries.map Framed.event ++ [.finish]) start).2 ∧
      ∀ mark : Landmark,
        mark.count (sink.callAll (entries.map Framed.event ++ [.finish]) start).2.module =
          mark.count start.module +
            (entries.map Prod.snd).countP fun inst => mark.marks inst.opcode := by
  rw [Sink.callAll_append] at answers ⊢
  obtain ⟨accepted, finished⟩ := List.forall_mem_append.mp answers
  change start.Extends _ (sink.callAll (entries.map Framed.event) start).2 ∧ ∀ mark : Landmark,
    mark.count (sink.callAll (entries.map Framed.event) start).2.module = _
  have isClosedToo : (sink.callAll (entries.map Framed.event) start).2.current = none :=
    (finish_proceeds_iff _).mp (finished _ List.mem_cons_self)
  refine ⟨extends_of_callAll (Prod.eta _).symm accepted, ?_⟩
  intro mark
  have counted := count_of_callAll (Prod.eta _).symm accepted mark
  rw [count_of_closed isClosed, count_of_closed isClosedToo] at counted
  exact counted

variable {m : Module} {limit : Nat} {bytes : Bytes}

theorem completed_of_parse (complete : (parse sink (.ofModule m limit) bytes).1.state = .complete) :
    ∃ entries, Completed bytes entries (parse sink (.ofModule m limit) bytes).2.module := by
  obtain ⟨opening, -, -, headed⟩ := exists_header m limit (Prod.eta _).symm (by rw [complete]; rfl)
  obtain ⟨events, ending, offers⟩ := exists_offers bytes
  rw [parse_of_offers _ _ offers] at complete headed ⊢
  obtain ⟨ended, answers⟩ := Sink.offer_of_complete complete
  rw [ended] at complete headed ⊢
  rw [← offers.verdict_eq] at complete
  obtain ⟨header, entries, accepted⟩ := exists_accepted complete
  have isEvents : events = moduleEvents header entries none := by
    rw [← offers.transcript_eq, accepted.delivered]
  subst isEvents
  -- The start and the header leave a module that has no instruction yet.
  obtain ⟨extended, counted⟩ := holds_of_answers ((ofModule {} limit).header header).2 rfl
    (List.forall_mem_cons.mp (List.forall_mem_cons.mp answers).2).2
  refine ⟨entries, ?_, ⟨header, accepted.delivered⟩, ?_, extended.instructions, extended.layout, ?_⟩
  · rw [headed]
    rfl
  · have tiled := accepted.tiled
    rw [Header.byteCount] at tiled
    omega
  · intro mark
    refine (counted mark).trans ?_
    cases mark <;> exact Nat.zero_add _

end Loader

/-- A load that completes holds the instructions of the bytes. -/
theorem completed_of_load {m loaded : Module} {limit : Nat} {verbosity : Int}
    {bytes trace : Bytes} {outcome : Outcome}
    (loads : m.load limit verbosity bytes = ⟨outcome, loaded, trace⟩)
    (complete : outcome.state = .complete) : ∃ entries, Completed bytes entries loaded := by
  have isOutcome : (parse Loader.sink (.ofModule m limit) bytes).1 = outcome := by
    rw [← Module.outcome_load m limit verbosity bytes, loads]
  have isLoaded : (parse Loader.sink (.ofModule m limit) bytes).2.module = loaded := by
    rw [← Module.module_load m limit verbosity bytes, loads]
  rw [← isLoaded]
  apply Loader.completed_of_parse
  rw [isOutcome]
  exact complete

end SpirvInspector
