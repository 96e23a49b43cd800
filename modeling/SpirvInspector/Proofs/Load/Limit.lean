import SpirvInspector.Load.Inspection
import SpirvInspector.Proofs.Load.Conservation

/-!
# Loading with a limit

A limit cuts a load short and does nothing else. Up to the limit the loader does what it would do
without one, and the first instruction past it ends the parse with the module as it was before.
-/

set_option autoImplicit false

namespace SpirvInspector

namespace Loader

/-- The loader with another limit. -/
def withLimit (loader : Loader) (limit : Nat) : Loader :=
  { loader with limit }

/-- The number of instructions that a loader has taken in. -/
def size (loader : Loader) : Nat :=
  loader.shelf.instructions.size

theorem module_withLimit (loader : Loader) (limit : Nat) :
    (loader.withLimit limit).module = loader.module := rfl

theorem size_module (loader : Loader) : loader.module.instructions.size = loader.size := by
  rw [instructions_module]
  rfl

/-- The end of the stream leaves the loader alone, and no limit has a part in the answer. -/
theorem offer_closing (loader : Loader) (ending : Outcome) (halted : Option Outcome) :
    ∃ outcome,
      (∀ limit, sink.offer ending (closing halted) (loader.withLimit limit) =
        (outcome, loader.withLimit limit)) ∧
      (ending.state ≠ .consumerStopRequested → outcome.state ≠ .consumerStopRequested) := by
  cases halted with
  | some outcome => exact ⟨ending, fun _ => rfl, id⟩
  | none =>
    have received (limit : Nat) : sink.receive .finish (loader.withLimit limit) =
        (loader.finish.1, loader.withLimit limit) := rfl
    cases unclosed : loader.unclosed? with
    | none =>
      rw [finish, unclosed] at received
      exact ⟨ending, fun limit => Sink.offer_cons (received limit) ending [], id⟩
    | some error =>
      rw [finish, unclosed] at received
      exact ⟨_, fun limit => Sink.offer_cons (received limit) ending [],
        fun _ => ParseState.noConfusion⟩

variable {loader : Loader} {limit : Nat} {inst : Instruction}

theorem snapshots_cons (loader : Loader) (entry : Framed) (later : List Framed) :
    sink.snapshots (entry :: later) loader =
      (entry, (loader.add entry.2).2) ::
        if (loader.add entry.2).1 = .proceed then sink.snapshots later (loader.add entry.2).2
        else [] := rfl

theorem offer_cons (loader : Loader) (ending : Outcome) (entry : Framed) (later : List Event) :
    sink.offer ending (entry.event :: later) loader =
      match (loader.add entry.2).1.refusal? entry.event with
      | some outcome => (outcome, (loader.add entry.2).2)
      | none => sink.offer ending later (loader.add entry.2).2 :=
  Sink.offer_cons rfl ending later

theorem add_withLimit_of_full (full : 0 < limit ∧ limit ≤ loader.size) :
    (loader.withLimit limit).add inst = (.stop, loader.withLimit limit) :=
  if_pos full

section Unlimited

variable (unlimited : loader.limit = 0)

include unlimited

theorem not_isFull : ¬loader.IsFull := by
  rintro ⟨positive, -⟩
  exact Nat.ne_of_gt positive unlimited

theorem add_withLimit_of_room (room : loader.size < limit) :
    (loader.withLimit limit).add inst =
      ((loader.add inst).1, (loader.add inst).2.withLimit limit) := by
  have notFull : ¬(loader.withLimit limit).IsFull := by
    rintro ⟨-, full⟩
    exact Nat.not_le_of_lt room full
  rw [add_of_room notFull, add_of_room (not_isFull unlimited)]
  rfl

theorem add_unlimited (inst : Instruction) :
    (loader.add inst).1 ≠ .stop ∧ (loader.add inst).2.limit = 0 ∧
      (loader.add inst).2.size = loader.size + 1 := by
  have added := loader.add_added inst
  generalize (loader.add inst).1 = answer at added
  generalize (loader.add inst).2 = after at added
  cases added with
  | stopped full => exact (not_isFull unlimited full).elim
  | refused room refused => exact ⟨Answer.noConfusion, unlimited, Array.size_push _⟩
  | placed room filing =>
    refine ⟨Answer.noConfusion, unlimited, ?_⟩
    rw [size, filing.instructions]
    exact Array.size_push _

/-- As long as there is room for all instructions, the limit is not felt. -/
theorem offer_withLimit_of_room (ending : Outcome) (entries : List Framed)
    (halted : Option Outcome)
    (room : loader.size + (sink.snapshots entries loader).length ≤ limit) :
    sink.offer ending (entries.map Framed.event ++ closing halted) (loader.withLimit limit) =
      ((sink.offer ending (entries.map Framed.event ++ closing halted) loader).1,
        (sink.offer ending (entries.map Framed.event ++ closing halted) loader).2.withLimit
          limit) := by
  induction entries generalizing loader with
  | nil =>
    obtain ⟨outcome, ended, -⟩ := loader.offer_closing ending halted
    have endedHere : sink.offer ending (closing halted) loader = (outcome, loader) :=
      ended loader.limit
    rw [List.map_nil, List.nil_append, ended, endedHere]
  | cons entry later inductionHypothesis =>
    obtain ⟨-, stillUnlimited, size⟩ := add_unlimited unlimited entry.2
    rw [snapshots_cons, List.length_cons] at room
    rw [List.map_cons, List.cons_append, offer_cons, offer_cons,
      add_withLimit_of_room unlimited (by omega)]
    cases refusal : (loader.add entry.2).1.refusal? entry.event with
    | some outcome => rfl
    | none =>
      rw [if_pos (Answer.refusal?_eq_none_iff.mp refusal)] at room
      exact inductionHypothesis stillUnlimited (by omega)

/-- The first instruction past the limit ends the parse, and the loader is as it was before. -/
theorem offer_withLimit_of_full (ending : Outcome) {entries : List Framed}
    (halted : Option Outcome) {past : Nat} (positive : 0 < limit)
    (reached : loader.size + past = limit) {entry : Framed} {before after : Loader}
    (isEntry : (sink.snapshots entries loader)[past]? = some (entry, after))
    (isBefore : (loader :: (sink.snapshots entries loader).map Prod.snd)[past]? = some before) :
    sink.offer ending (entries.map Framed.event ++ closing halted) (loader.withLimit limit) =
      (.located .consumerStopRequested entry.1.offset entry.1.index, before.withLimit limit) := by
  -- The induction is on the instructions that still have room. The bytes behind the one past the
  -- limit never matter, so nothing is said about the other entries.
  induction past generalizing loader entries with
  | zero =>
    cases entries with
    | nil => cases isEntry
    | cons first later =>
      cases isEntry
      cases isBefore
      rw [List.map_cons, List.cons_append, offer_cons,
        add_withLimit_of_full ⟨positive, Nat.le_of_eq reached.symm⟩]
      rfl
  | succ past inductionHypothesis =>
    cases entries with
    | nil => cases isEntry
    | cons first later =>
      obtain ⟨-, stillUnlimited, size⟩ := add_unlimited unlimited first.2
      rw [snapshots_cons] at isEntry isBefore
      by_cases proceeds : (loader.add first.2).1 = .proceed
      · rw [if_pos proceeds] at isEntry isBefore
        rw [List.map_cons, List.cons_append, offer_cons,
          add_withLimit_of_room unlimited (by omega), proceeds]
        exact inductionHypothesis stillUnlimited (by omega) isEntry isBefore
      · rw [if_neg proceeds] at isEntry
        cases isEntry

/-- Without a limit nothing is stopped, and each instruction is taken in. -/
theorem offer_unlimited (ending : Outcome) (entries : List Framed) (halted : Option Outcome)
    (unstopped : ending.state ≠ .consumerStopRequested) :
    (sink.offer ending (entries.map Framed.event ++ closing halted) loader).1.state ≠
        .consumerStopRequested ∧
      (sink.offer ending (entries.map Framed.event ++ closing halted) loader).2.size =
        loader.size + (sink.snapshots entries loader).length := by
  induction entries generalizing loader with
  | nil =>
    obtain ⟨outcome, ended, stillUnstopped⟩ := loader.offer_closing ending halted
    have endedHere : sink.offer ending (closing halted) loader = (outcome, loader) :=
      ended loader.limit
    rw [List.map_nil, List.nil_append, endedHere]
    exact ⟨stillUnstopped unstopped, rfl⟩
  | cons entry later inductionHypothesis =>
    obtain ⟨unstoppedHere, stillUnlimited, size⟩ := add_unlimited unlimited entry.2
    rw [List.map_cons, List.cons_append, offer_cons, snapshots_cons, List.length_cons]
    cases answer : (loader.add entry.2).1 with
    | proceed =>
      obtain ⟨unstoppedBehind, sizeBehind⟩ := inductionHypothesis stillUnlimited
      refine ⟨unstoppedBehind, sizeBehind.trans ?_⟩
      rw [if_pos rfl, size]
      omega
    | stop => exact (unstoppedHere answer).elim
    | error reason => exact ⟨ParseState.noConfusion, size⟩

theorem size_snapshot {entries : List Framed} {past : Nat} {before : Loader}
    (isBefore : (loader :: (sink.snapshots entries loader).map Prod.snd)[past]? = some before) :
    before.size = loader.size + past := by
  induction past generalizing loader entries with
  | zero =>
    cases isBefore
    rfl
  | succ past inductionHypothesis =>
    cases entries with
    | nil => cases isBefore
    | cons first later =>
      obtain ⟨-, stillUnlimited, size⟩ := add_unlimited unlimited first.2
      rw [snapshots_cons] at isBefore
      by_cases proceeds : (loader.add first.2).1 = .proceed
      · rw [if_pos proceeds] at isBefore
        have behind := inductionHypothesis stillUnlimited isBefore
        omega
      · rw [if_neg proceeds] at isBefore
        cases past with
        | zero =>
          cases isBefore
          exact size
        | succ past => cases isBefore

end Unlimited

/-- `Loading bytes start entries halted ending`: behind the header, a loader is offered the
instructions of the bytes, from an empty module on. -/
structure Loading (bytes : Bytes) (start : Loader) (entries : List Framed)
    (halted : Option Outcome) (ending : Outcome) : Prop where
  unlimited : start.limit = 0
  empty : start.size = 0
  laid : Laid bytes Header.byteCount 1 entries
  unstopped : ending.state ≠ .consumerStopRequested
  parsed : ∀ m limit, parse sink (.ofModule m limit) bytes =
    sink.offer ending (entries.map Framed.event ++ closing halted) (start.withLimit limit)
  filmed : ∀ m, parse sink.filmed (.ofModule m 0, []) bytes =
    sink.filmed.offer ending (entries.map Framed.event ++ closing halted) (start, [])

theorem exists_loading (bytes : Bytes) :
    ∃ start entries halted ending, Loading bytes start entries halted ending := by
  obtain ⟨events, ending, offers⟩ := exists_offers bytes
  have unstopped := offers.state_ne.1
  cases offers with
  | headless refused =>
    refine ⟨.ofModule {} 0, [], some ending, ending, rfl, rfl, .nil, unstopped, ?_, ?_⟩
    · intro m limit
      rw [parse_of_offers _ _ (.headless refused)]
      rfl
    · intro m
      rw [parse_of_offers _ _ (.headless refused)]
      rfl
  | @opened header rest entries halted parsed scan =>
    obtain ⟨laid, -⟩ := scan.laid (Header.take_drop_of_parse parsed).2
    refine ⟨((ofModule {} 0).header header).2, entries, halted, _, rfl, rfl, laid, unstopped,
      ?_, ?_⟩
    · intro m limit
      rw [parse_of_offers _ _ (.opened parsed scan)]
      rfl
    · intro m
      rw [parse_of_offers _ _ (.opened parsed scan)]
      rfl

end Loader

theorem Laid.getElem? {bytes : Bytes} {offset index position : Nat} {entries : List Framed}
    {entry : Framed} (laid : Laid bytes offset index entries)
    (isEntry : entries[position]? = some entry) :
    entry.1.offset = offset + 4 * Framed.words (entries.take position) ∧
      entry.1.index = index + position := by
  induction laid generalizing position with
  | nil => cases isEntry
  | @cons frame inst later holds there others inductionHypothesis =>
    cases position with
    | zero =>
      cases isEntry
      exact ⟨rfl, rfl⟩
    | succ position =>
      obtain ⟨isOffset, isIndex⟩ := inductionHypothesis isEntry
      rw [isOffset, isIndex, List.take_succ_cons, Framed.words_cons]
      constructor
      · dsimp only
        omega
      · omega

theorem Module.outcome_load (m : Module) (limit : Nat) (verbosity : Int) (bytes : Bytes) :
    (m.load limit verbosity bytes).outcome = (parse Loader.sink (.ofModule m limit) bytes).1 := by
  have traced := (Loader.sink.traced_wraps (decide (1 < verbosity))).parse
    ⟨.ofModule m limit, #[]⟩ bytes
  exact (congrArg Prod.fst traced).symm

namespace Inquiry

theorem stopped_accept (inquiry : Inquiry) (terminal : Bool) (loaded : Loaded) :
    (inquiry.accept terminal loaded).stopped = loaded.outcome.stopped := by
  rw [accept]
  cases loaded.module.header <;> rfl

theorem stopped_loadModule (inquiry : Inquiry) (terminal : Bool) (limit : Nat) :
    (inquiry.loadModule terminal limit).stopped =
      (parse Loader.sink (.ofModule {} limit) inquiry.input).1.stopped := by
  rw [← Module.outcome_load {} limit inquiry.verbosity, loadModule]
  generalize ({} : Module).load limit inquiry.verbosity inquiry.input = loaded
  split
  · exact stopped_accept inquiry terminal loaded
  · next failed =>
    rw [Bool.or_eq_true, not_or, Bool.not_eq_true] at failed
    exact failed.1.symm

end Inquiry

/-- How a load with a limit stands to the load without one, of which the film shows each
instruction with the loader behind it. -/
structure CutShort (bytes : Bytes) (limit : Nat) (film : List (Framed × Loader))
    (outcome : Outcome) (full : Loader) (cutOutcome : Outcome) (cut : Loader) : Prop where
  /-- The film shows instructions of the bytes, one behind the other. -/
  laid : Laid bytes Header.byteCount 1 (film.map Prod.fst)
  size : full.module.instructions.size = film.length
  within : film.length ≤ limit → cutOutcome = outcome ∧ cut.module = full.module
  /-- The first instruction past the limit ends the load, and the module is as it was before. -/
  past : limit < film.length → ∃ last next : Framed × Loader,
    film[limit - 1]? = some last ∧ film[limit]? = some next ∧
    cutOutcome = .located .consumerStopRequested next.1.1.offset next.1.1.index ∧
    next.1.1.offset = Header.byteCount + 4 * Framed.words ((film.take limit).map Prod.fst) ∧
    next.1.1.index = limit + 1 ∧
    cut.module = last.2.module ∧ cut.module.instructions.size = limit
  stopped : cutOutcome.stopped = true ↔ limit < film.length

namespace Loader.Loading

variable {bytes : Bytes} {start : Loader} {entries : List Framed} {halted : Option Outcome}
  {ending : Outcome} {limit : Nat}

theorem past_limit (loading : Loading bytes start entries halted ending) (positive : 0 < limit)
    (past : limit < (sink.snapshots entries start).length) :
    ∃ last next : Framed × Loader,
      (sink.snapshots entries start)[limit - 1]? = some last ∧
      (sink.snapshots entries start)[limit]? = some next ∧
      sink.offer ending (entries.map Framed.event ++ closing halted) (start.withLimit limit) =
        (.located .consumerStopRequested next.1.1.offset next.1.1.index,
          last.2.withLimit limit) ∧
      last.2.size = limit := by
  have isNext := List.getElem?_eq_getElem past
  have isLast := List.getElem?_eq_getElem (Nat.lt_of_le_of_lt (Nat.sub_le limit 1) past)
  generalize (sink.snapshots entries start)[limit] = next at isNext
  generalize (sink.snapshots entries start)[limit - 1] = last at isLast
  have reached : start.size + limit = limit := by
    rw [loading.empty, Nat.zero_add]
  have isBefore : (start :: (sink.snapshots entries start).map Prod.snd)[limit]? = some last.2 := by
    rw [← Nat.sub_add_cancel positive, List.getElem?_cons_succ, List.getElem?_map, isLast]
    rfl
  refine ⟨last, next, isLast, isNext, ?_, ?_⟩
  · exact offer_withLimit_of_full loading.unlimited ending halted positive reached isNext isBefore
  · exact (size_snapshot loading.unlimited isBefore).trans reached

theorem cutShort (loading : Loading bytes start entries halted ending) (positive : 0 < limit) :
    CutShort bytes limit (sink.snapshots entries start)
      (sink.offer ending (entries.map Framed.event ++ closing halted) start).1
      (sink.offer ending (entries.map Framed.event ++ closing halted) start).2
      (sink.offer ending (entries.map Framed.event ++ closing halted) (start.withLimit limit)).1
      (sink.offer ending (entries.map Framed.event ++ closing halted)
        (start.withLimit limit)).2 := by
  have laid : Laid bytes Header.byteCount 1 ((sink.snapshots entries start).map Prod.fst) := by
    obtain ⟨unseen, split⟩ := sink.map_fst_snapshots_prefix entries start
    have laid := loading.laid
    rw [← split] at laid
    exact laid.of_append
  have within (fits : (sink.snapshots entries start).length ≤ limit) :
      sink.offer ending (entries.map Framed.event ++ closing halted) (start.withLimit limit) =
        ((sink.offer ending (entries.map Framed.event ++ closing halted) start).1,
          (sink.offer ending (entries.map Framed.event ++ closing halted) start).2.withLimit
            limit) := by
    apply offer_withLimit_of_room loading.unlimited
    rw [loading.empty, Nat.zero_add]
    exact fits
  obtain ⟨unstopped, size⟩ :=
    offer_unlimited loading.unlimited ending entries halted loading.unstopped
  constructor
  case laid => exact laid
  case size => rw [size_module, size, loading.empty, Nat.zero_add]
  case within =>
    intro fits
    rw [within fits]
    exact ⟨rfl, rfl⟩
  case past =>
    intro past
    obtain ⟨last, next, isLast, isNext, cut, size⟩ := loading.past_limit positive past
    obtain ⟨isOffset, isIndex⟩ := laid.getElem? (by rw [List.getElem?_map, isNext]; rfl)
    rw [cut, List.map_take]
    refine ⟨last, next, isLast, isNext, rfl, isOffset, ?_, rfl, ?_⟩
    · exact isIndex.trans (Nat.add_comm 1 limit)
    · rw [module_withLimit, size_module]
      exact size
  case stopped =>
    by_cases fits : (sink.snapshots entries start).length ≤ limit
    · rw [within fits]
      apply iff_of_false
      · intro stopped
        exact unstopped (beq_iff_eq.mp stopped)
      · exact Nat.not_lt_of_le fits
    · have past := Nat.lt_of_not_le fits
      obtain ⟨last, next, -, -, cut, -⟩ := loading.past_limit positive past
      rw [cut]
      exact iff_of_true rfl past

end Loader.Loading

/-- A load with a limit is a beginning of the load without one: all of it, if the limit is not
passed, and otherwise the load up to the limit, whatever the bytes hold behind. -/
theorem load_cutShort (m : Module) (bytes : Bytes) {limit : Nat} (positive : 0 < limit)
    {outcome cutOutcome : Outcome} {full cut : Loader} {film : List (Framed × Loader)}
    (filmed : parse Loader.sink.filmed (.ofModule m 0, []) bytes = (outcome, full, film))
    (limited : parse Loader.sink (.ofModule m limit) bytes = (cutOutcome, cut)) :
    parse Loader.sink (.ofModule m 0) bytes = (outcome, full) ∧
      CutShort bytes limit film outcome full cutOutcome cut ∧
      (∀ inquiry : Inquiry, inquiry.input = bytes → ∀ terminal,
        (inquiry.loadModule terminal limit).stopped = true ↔ limit < film.length) ∧
      (outcome.succeeded = true → full.module.instructions.size = limit →
        cutOutcome.succeeded = true) := by
  obtain ⟨start, entries, halted, ending, loading⟩ := Loader.exists_loading bytes
  have unfilmed := Loader.sink.filmed_wraps.parse (.ofModule m 0, []) bytes
  rw [filmed] at unfilmed
  have isFilm : film = Loader.sink.snapshots entries start := by
    have shown := Loader.sink.film_offer ending entries halted start []
    rw [← loading.filmed m, filmed] at shown
    exact shown
  have isFull : Loader.sink.offer ending (entries.map Framed.event ++ closing halted) start =
      (outcome, full) := by
    have same : start.withLimit 0 = start := by
      rw [Loader.withLimit, ← loading.unlimited]
    rw [← same, ← loading.parsed m 0]
    exact unfilmed
  have cutShort : CutShort bytes limit film outcome full cutOutcome cut := by
    have cutShort := loading.cutShort positive
    rw [← isFilm, isFull, ← loading.parsed m limit, limited] at cutShort
    exact cutShort
  refine ⟨unfilmed, cutShort, ?_, ?_⟩
  · rintro inquiry rfl terminal
    rw [inquiry.stopped_loadModule, ← cutShort.stopped, loading.parsed {} limit,
      ← loading.parsed m limit, limited]
  · intro succeeded size
    rw [(cutShort.within (Nat.le_of_eq (cutShort.size.symm.trans size))).1]
    exact succeeded

/-- Two instructions, and behind them a word count of zero. -/
def twoAndZero : Bytes :=
  Word.serialize [Header.magicNumber, 0x10400, 0, 1, 0, 0x20011, 1, 0x20011, 1, 0]

theorem load_twoAndZero :
    ∃ outcome full film cutOutcome cut,
      parse Loader.sink.filmed (.ofModule {} 0, []) twoAndZero = (outcome, full, film) ∧
        parse Loader.sink (.ofModule {} 1) twoAndZero = (cutOutcome, cut) ∧
        outcome.state = .wordCountZero ∧ film.length = 2 ∧
        cutOutcome = .located .consumerStopRequested 28 2 ∧ cut.module.instructions.size = 1 := by
  have state : (parse Loader.sink.filmed (.ofModule {} 0, []) twoAndZero).1.state =
      .wordCountZero := by
    decide +kernel
  have length : (parse Loader.sink.filmed (.ofModule {} 0, []) twoAndZero).2.2.length = 2 := by
    decide +kernel
  have words : Framed.words
      (((parse Loader.sink.filmed (.ofModule {} 0, []) twoAndZero).2.2.take 1).map Prod.fst) =
        2 := by
    decide +kernel
  rcases filmed : parse Loader.sink.filmed (.ofModule {} 0, []) twoAndZero with
    ⟨outcome, full, film⟩
  rcases limited : parse Loader.sink (.ofModule {} 1) twoAndZero with ⟨cutOutcome, cut⟩
  rw [filmed] at state length words
  obtain ⟨-, cutShort, -⟩ := load_cutShort {} twoAndZero Nat.one_pos filmed limited
  obtain ⟨last, next, -, -, isCut, isOffset, isIndex, -, size⟩ :=
    cutShort.past (Nat.lt_of_lt_of_eq Nat.one_lt_two length.symm)
  refine ⟨outcome, full, film, cutOutcome, cut, rfl, rfl, state, length, ?_, size⟩
  rw [isCut, isOffset, isIndex, words]
  rfl

end SpirvInspector
