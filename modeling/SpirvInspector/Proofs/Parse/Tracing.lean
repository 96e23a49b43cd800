import Mathlib.Data.List.DropRight
import SpirvInspector.Proofs.Parse.Returning
import SpirvInspector.Proofs.Text.Numerals

/-!
# Traces are inert and faithful

The verbosity of a parse makes no difference to the sink and to the outcome. Without tracing nothing
is written. With tracing there is one entry for each instruction that the sink is called with, in
this order: the offset and the words can be read off its text, and the words of all entries are the
bytes from behind the header up to the end of the last instruction.
-/

set_option autoImplicit false

namespace SpirvInspector

variable {σ : Type}

namespace TraceEntry

def ofFramed (entry : Framed) : TraceEntry :=
  instruction entry.1 entry.2

/-- The lines that are written when the header is passed on. -/
def headerLines : Event → Bytes
  | .header h => (header h).render
  | _ => []

/-- The number behind the mark at the start of the text of an instruction. -/
def shownOffset (text : Bytes) : Nat :=
  Text.valueOf 16 ((text.drop 2).takeWhile Text.isHexDigit)

/-- What stands behind the last line break but the one that ends the text. -/
def lastLine (text : Bytes) : Bytes :=
  text.dropLast.rtakeWhile (· != 10)

/-- The numbers on the last line of the text of an instruction, behind its margin. -/
def shownWords (text : Bytes) : List Word :=
  (((lastLine text).drop 9).splitOn 32).map fun digits => (Text.valueOf 16 digits).toUInt32

section ReadBack

theorem shownOffset_render (entry : Framed) :
    shownOffset (ofFramed entry).render = entry.1.offset := by
  have mark : (ascii "0x").length = 2 := rfl
  have digits : ∀ b ∈ Text.hex 5 entry.1.offset, Text.isHexDigit b = true := by
    intro b isIn
    exact Text.isHexDigit_of_mem_hex isIn
  have colon (later : Bytes) : (ascii ": " ++ later).takeWhile Text.isHexDigit = [] := rfl
  simp only [shownOffset, ofFramed, render, List.append_assoc]
  rw [List.drop_left' mark, List.takeWhile_append_of_pos digits, colon, List.append_nil,
    Text.valueOf_hex]

theorem lastLine_eq (front : Bytes) {line : Bytes} (unbroken : 10 ∉ line) :
    lastLine (front ++ 10 :: line ++ [10]) = line := by
  have all : ∀ b ∈ line.reverse, (b != 10) = true := by
    intro b isIn
    rw [bne_iff_ne]
    rintro rfl
    exact unbroken (List.mem_reverse.mp isIn)
  rw [lastLine, List.dropLast_concat, List.rtakeWhile, List.reverse_append, List.reverse_cons,
    List.append_assoc, List.takeWhile_append_of_pos all]
  simp

/-- A blank in front of each word is one between the words, behind the first of these blanks. -/
theorem flatMap_blank (first : Word) (others : List Word) :
    (first :: others).flatMap (fun word => ascii " " ++ Text.hex 8 word.toNat) =
      32 :: List.intercalate [32] ((first :: others).map fun word => Text.hex 8 word.toNat) := by
  have blank : ascii " " = [32] := rfl
  rw [blank]
  induction others generalizing first with
  | nil => simp
  | cons second others inductionHypothesis =>
    rw [List.flatMap_cons, inductionHypothesis]
    simp [List.intercalate]

theorem lastLine_render (entry : Framed) :
    lastLine (ofFramed entry).render =
      List.replicate 9 32 ++
        List.intercalate [32] (entry.1.words.map fun word => Text.hex 8 word.toNat) := by
  have margin : ascii "\n        " = 10 :: List.replicate 8 32 := rfl
  have lineBreak : ascii "\n" = [10] := rfl
  have unbroken : 10 ∉ List.replicate 8 (32 : UInt8) ++
      entry.1.words.flatMap fun word => ascii " " ++ Text.hex 8 word.toNat := by
    have blank : ascii " " = [32] := rfl
    have notDigit (word : Word) : (10 : UInt8) ∉ Text.hex 8 word.toNat := Text.notMem_hex rfl
    simp [blank, notDigit]
  have shown : (ofFramed entry).render =
      (ascii "0x" ++ Text.hex 5 entry.1.offset ++ ascii ": " ++ entry.2.render) ++
        10 :: (List.replicate 8 32 ++
          entry.1.words.flatMap fun word => ascii " " ++ Text.hex 8 word.toNat) ++ [10] := by
    simp only [ofFramed, render, margin, lineBreak, List.append_assoc, List.cons_append]
  rw [shown, lastLine_eq _ unbroken, Frame.words, flatMap_blank]
  rfl

theorem shownWords_render (entry : Framed) :
    shownWords (ofFramed entry).render = entry.1.words := by
  have margin : (List.replicate 9 (32 : UInt8)).length = 9 := rfl
  have words : entry.1.words.map (fun word => Text.hex 8 word.toNat) ≠ [] := by
    simp [Frame.words]
  have unbroken : ∀ digits ∈ entry.1.words.map fun word => Text.hex 8 word.toNat,
      32 ∉ digits := by
    intro digits isIn
    obtain ⟨word, -, rfl⟩ := List.mem_map.mp isIn
    exact Text.notMem_hex rfl
  rw [shownWords, lastLine_render, List.drop_left' margin,
    List.splitOn_intercalate 32 unbroken words, List.map_map]
  refine (List.map_congr_left ?_).trans (List.map_id _)
  intro word isWord
  simp

end ReadBack

end TraceEntry

/-- The instructions among the events that a sink is called with. -/
def Call.instructions (calls : List Call) : List Framed :=
  calls.filterMap fun call => call.event.framed?

namespace Framed

/-- The end of the last of the instructions that stand one behind the other from `start` on. -/
def stop (start : Nat) (entries : List Framed) : Nat :=
  (entries.getLast?.map fun last => last.1.offset + 4 * last.1.wordCount).getD start

theorem stop_cons (start : Nat) (entry : Framed) (later : List Framed) :
    stop start (entry :: later) = stop (entry.1.offset + 4 * entry.1.wordCount) later := by
  rw [stop, stop, List.getLast?_cons]
  cases later.getLast? <;> rfl

end Framed

namespace Laid

variable {bytes : Bytes} {offset index : Nat} {entries : List Framed}

theorem stop_eq (laid : Laid bytes offset index entries) :
    Framed.stop offset entries = offset + 4 * Framed.words entries := by
  induction laid with
  | nil => rfl
  | cons holds there others inductionHypothesis =>
    rw [Framed.stop_cons, inductionHypothesis, Framed.words_cons, Nat.mul_add, Nat.add_assoc]

/-- The words of instructions that stand one behind the other are the bytes there. -/
theorem serialize_words (laid : Laid bytes offset index entries) :
    Word.serialize (entries.flatMap fun entry => entry.1.words) =
      (bytes.drop offset).take (4 * Framed.words entries) := by
  induction laid with
  | nil => simp [Word.serialize]
  | @cons frame inst later holds there others inductionHypothesis =>
    have split : Word.serialize (frame.words ++ later.flatMap fun entry => entry.1.words) =
        Word.serialize frame.words ++ Word.serialize (later.flatMap fun entry => entry.1.words) :=
      List.flatMap_append
    rw [List.flatMap_cons, split, inductionHypothesis, holds.whole.serialize_words, ← there,
      Framed.words_cons, Nat.mul_add, List.take_add, List.drop_drop]

theorem holds_of_mem (laid : Laid bytes offset index entries) {entry : Framed}
    (isEntry : entry ∈ entries) :
    entry.1.Holds entry.2 ∧ (bytes.drop entry.1.offset).take (4 * entry.1.wordCount) =
      entry.1.first.bytes ++ entry.1.window := by
  induction laid with
  | nil => cases isEntry
  | cons holds there others inductionHypothesis =>
    cases isEntry with
    | head => exact ⟨holds, there⟩
    | tail _ isLater => exact inductionHypothesis isLater

/-- The second reading of an instruction's words finds what was parsed. -/
theorem traceLine_of_mem (laid : Laid bytes offset index entries) {entry : Framed}
    (isEntry : entry ∈ entries) :
    traceLine bytes entry.1 entry.2 = .ok (TraceEntry.ofFramed entry).render := by
  obtain ⟨holds, there⟩ := laid.holds_of_mem isEntry
  have split : bytes.drop entry.1.offset = entry.1.first.bytes ++ entry.1.window ++
      (bytes.drop entry.1.offset).drop (4 * entry.1.wordCount) := by
    rw [← there, List.take_append_drop]
  exact traceLine_eq holds split

end Laid

namespace Machine

theorem flatMap_written_of_headerless {events : List Event}
    (headerless : ∀ event ∈ events, TraceEntry.headerLines event = []) :
    events.flatMap (written true) =
      (events.filterMap Event.framed?).flatMap fun entry => (TraceEntry.ofFramed entry).render := by
  induction events with
  | nil => rfl
  | cons event later inductionHypothesis =>
    obtain ⟨here, others⟩ := List.forall_mem_cons.mp headerless
    have behind := inductionHypothesis others
    rw [List.flatMap_cons, behind]
    cases event with
    | start | finish | instruction => rfl
    | header h =>
      change (TraceEntry.header h).render = [] at here
      change (TraceEntry.header h).render ++ _ = _
      rw [here]
      rfl

/-- In the order of a module, the lines of the header come before those of the instructions. -/
theorem flatMap_written {events : List Event} {header : Header} {entries : List Framed}
    (ordered : events <+: moduleEvents header entries none) :
    events.flatMap (written true) = events.flatMap TraceEntry.headerLines ++
      (events.filterMap Event.framed?).flatMap fun entry => (TraceEntry.ofFramed entry).render := by
  rcases List.prefix_cons_iff.mp ordered with rfl | ⟨started, rfl, behindStart⟩
  · rfl
  rcases List.prefix_cons_iff.mp behindStart with rfl | ⟨events, rfl, behindHeader⟩
  · rfl
  -- Behind the header, only an instruction makes a traced sink write.
  have headerless : ∀ event ∈ events, TraceEntry.headerLines event = [] := by
    intro event isEvent
    rcases List.mem_append.mp (behindHeader.subset isEvent) with isInstruction | isClosing
    · obtain ⟨entry, -, rfl⟩ := List.mem_map.mp isInstruction
      rfl
    · cases List.mem_singleton.mp isClosing
      rfl
  have none : events.flatMap TraceEntry.headerLines = [] := List.flatMap_eq_nil_iff.mpr headerless
  have behind := flatMap_written_of_headerless headerless
  change (TraceEntry.header header).render ++ events.flatMap (written true) =
    ((TraceEntry.header header).render ++ events.flatMap TraceEntry.headerLines) ++ _
  rw [none, List.append_nil, behind]
  rfl

end Machine

/-- What a trace shows of the calls of a parse. -/
structure Traces (bytes : Bytes) (calls : List Call) (output : Bytes) : Prop where
  /-- Below the lines of the header, an entry for each instruction and for nothing else. -/
  written : output = (calls.flatMap fun call => TraceEntry.headerLines call.event) ++
    (Call.instructions calls).flatMap fun entry => (TraceEntry.ofFramed entry).render
  /-- The words of an entry come from a second reading, at the offset that is shown. -/
  reread : ∀ entry ∈ Call.instructions calls,
    traceLine bytes entry.1 entry.2 = .ok (TraceEntry.ofFramed entry).render
  placed : Laid bytes Header.byteCount 1 (Call.instructions calls)
  /-- An entry shows where its instruction starts and the bytes of it. -/
  shown : ∀ entry ∈ Call.instructions calls,
    TraceEntry.shownOffset (TraceEntry.ofFramed entry).render = entry.1.offset ∧
      Word.serialize (TraceEntry.shownWords (TraceEntry.ofFramed entry).render) =
        (bytes.drop entry.1.offset).take (4 * entry.1.wordCount)
  restored :
    Word.serialize ((Call.instructions calls).flatMap fun entry =>
        TraceEntry.shownWords (TraceEntry.ofFramed entry).render) =
      (bytes.take (Framed.stop Header.byteCount (Call.instructions calls))).drop Header.byteCount

/-- What the parses of the same bytes into the same sink have in common, and what each writes. -/
structure Tracing (sink : Sink σ) (state : σ) (bytes : Bytes) (outcome : Outcome) (after : σ)
    (calls : List Call) : Prop where
  /-- Logging shows that the calls are the same ones too. -/
  inert : ∀ verbosity, ∃ entries,
    parseVerbosely sink state verbosity bytes = (outcome, ⟨after, entries⟩) ∧
      parseVerbosely sink.logged (state, []) verbosity bytes = (outcome, ⟨(after, calls), entries⟩)
  quiet : ∀ verbosity ≤ 1, (parseVerbosely sink state verbosity bytes).2.render = []
  faithful : ∀ verbosity ≥ 2,
    Traces bytes calls (parseVerbosely sink state verbosity bytes).2.render

section Tracing

variable (sink : Sink σ) (state : σ) {bytes : Bytes} {calls : List Call} {outcome : Outcome}

/-- Forgets the log, and keeps the entries of the trace. -/
def Traced.unlogged (traced : Traced (σ × List Call)) : Traced σ :=
  ⟨traced.state.1, traced.entries⟩

theorem Sink.logged_traced_wraps (tracing : Bool) :
    (sink.logged.traced tracing).Wraps (sink.traced tracing) Traced.unlogged := by
  intro event traced
  rfl

/-- What is written is what the calls in the log make it write. -/
theorem Sink.render_offer_logged (tracing : Bool) (ending : Outcome) (events : List Event) :
    ((sink.logged.traced tracing).offer ending events ⟨(state, []), #[]⟩).2.render =
      ((sink.logged.traced tracing).offer ending events ⟨(state, []), #[]⟩).2.state.2.flatMap
        fun call => Machine.written tracing call.event := by
  apply Sink.offer_induction fun traced : Traced (σ × List Call) =>
    traced.render = traced.state.2.flatMap fun call => Machine.written tracing call.event
  · -- The entry is made before the event is passed on, so the refused one has its entry too.
    intro event isEvent traced agreed
    have logged : ((sink.logged.traced tracing).receive event traced).2.state.2 =
        traced.state.2 ++ [⟨event, (sink.receive event traced.state.1).1⟩] := rfl
    rw [Machine.render_receive, agreed, logged, List.flatMap_append, List.flatMap_singleton]
  · rfl

theorem traces_of_heard {ending : Outcome} {events : List Event}
    (offers : Offers bytes events ending) (heard : Heard ending events calls outcome) :
    Traces bytes calls (calls.flatMap fun call => Machine.written true call.event) := by
  obtain ⟨unheard, split⟩ := heard.map_event_prefix
  have found : Call.instructions calls = (calls.map Call.event).filterMap Event.framed? := by
    rw [List.filterMap_map]
    rfl
  have laid : Laid bytes Header.byteCount 1 (Call.instructions calls) := by
    have all := offers.laid
    rw [← split, List.filterMap_append, ← found] at all
    exact all.of_append
  constructor
  case written =>
    obtain ⟨header, entries, ordered⟩ := offers.ordered
    have lines := Machine.flatMap_written (heard.map_event_prefix.trans ordered)
    rw [← found, List.flatMap_map, List.flatMap_map] at lines
    exact lines
  case reread =>
    intro entry isEntry
    exact laid.traceLine_of_mem isEntry
  case placed => exact laid
  case shown =>
    intro entry isEntry
    obtain ⟨holds, there⟩ := laid.holds_of_mem isEntry
    refine ⟨TraceEntry.shownOffset_render entry, ?_⟩
    rw [there, TraceEntry.shownWords_render, holds.whole.serialize_words]
  case restored =>
    have shown : (fun entry => TraceEntry.shownWords (TraceEntry.ofFramed entry).render) =
        fun entry : Framed => entry.1.words := funext TraceEntry.shownWords_render
    rw [shown, laid.serialize_words, laid.stop_eq, List.drop_take, Nat.add_sub_cancel_left]

/-- With tracing and without it, the sink hears the same. -/
theorem exists_entries {ending : Outcome} {events : List Event} {after : σ}
    (offers : Offers bytes events ending)
    (log : sink.logged.offer ending events (state, []) = (outcome, (after, calls)))
    (tracing : Bool) :
    ∃ entries, parse (sink.traced tracing) ⟨state, #[]⟩ bytes = (outcome, ⟨after, entries⟩) ∧
      parse (sink.logged.traced tracing) ⟨(state, []), #[]⟩ bytes =
        (outcome, ⟨(after, calls), entries⟩) ∧
      Traced.render ⟨after, entries⟩ =
        calls.flatMap fun call => Machine.written tracing call.event := by
  have seen := (sink.logged.traced_wraps tracing).offer ending events ⟨(state, []), #[]⟩
  have unlogged := (sink.logged_traced_wraps tracing).offer ending events ⟨(state, []), #[]⟩
  have rendered := sink.render_offer_logged state tracing ending events
  rw [parse_of_offers _ _ offers, parse_of_offers _ _ offers]
  rcases ran : (sink.logged.traced tracing).offer ending events ⟨(state, []), #[]⟩ with
    ⟨ended, ⟨last, heard⟩, entries⟩
  rw [ran] at seen unlogged rendered
  obtain ⟨rfl, rfl, rfl⟩ : ended = outcome ∧ last = after ∧ heard = calls := by
    simpa using seen.symm.trans log
  exact ⟨entries, unlogged, rfl, rendered⟩

end Tracing

/-- The verbosity of a parse decides about what is written and about nothing else. From level 2 on
the instructions that the sink is called with are written, and they are the bytes they came from. -/
theorem parseVerbosely_tracing (sink : Sink σ) (state : σ) (bytes : Bytes) :
    ∃ outcome after calls, Tracing sink state bytes outcome after calls := by
  obtain ⟨events, ending, offers⟩ := exists_offers bytes
  obtain ⟨calls, heard, log⟩ := sink.offer_logged ending events state []
  refine ⟨(sink.offer ending events state).1, (sink.offer ending events state).2, calls, ?_⟩
  constructor
  case inert =>
    intro verbosity
    obtain ⟨entries, parsed, logged, -⟩ :=
      exists_entries sink state offers log (decide (1 < verbosity))
    exact ⟨entries, parsed, logged⟩
  case quiet =>
    intro verbosity low
    have untraced : decide (1 < verbosity) = false := decide_eq_false (Int.not_lt.mpr low)
    obtain ⟨entries, parsed, -, rendered⟩ := exists_entries sink state offers log false
    rw [parseVerbosely, untraced, parsed, rendered]
    exact List.flatMap_eq_nil_iff.mpr fun call isCall => rfl
  case faithful =>
    intro verbosity high
    have traced : decide (1 < verbosity) = true := decide_eq_true high
    obtain ⟨entries, parsed, -, rendered⟩ := exists_entries sink state offers log true
    rw [parseVerbosely, traced, parsed, rendered]
    exact traces_of_heard offers heard

end SpirvInspector
