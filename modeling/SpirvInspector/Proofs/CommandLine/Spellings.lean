import SpirvInspector.Proofs.CommandLine.Turns

/-!
# Spellings of an option

The value of an option follows its short or its long name, behind an equals sign or as a token of
its own. Where names hold no equals sign, a token calls an option only by its whole name, so no
other option takes it, whichever names begin with each other. All four spellings make the same call.
-/

set_option autoImplicit false

namespace SpirvInspector

namespace CommandLine

variable {ο : Type}

namespace Entry

variable {entry other : Entry ο} {token behind : Bytes}

def allNames (entry : Entry ο) : List Bytes :=
  entry.short.toList ++ entry.long.toList

/-- Behind the name of an option the token ends, or an equals sign follows. -/
def EndsName (behind : Bytes) : Prop :=
  ∀ byte ∈ behind.head?, byte = 61

/-- Names that hold no equals sign are the same where one text calls both. -/
theorem name_unique {name otherName otherBehind : Bytes} (plain : 61 ∉ name)
    (otherPlain : 61 ∉ otherName) (ends : EndsName behind) (otherEnds : EndsName otherBehind)
    (same : name ++ behind = otherName ++ otherBehind) : name = otherName := by
  induction name generalizing otherName with
  | nil =>
    cases otherName with
    | nil => rfl
    | cons byte later =>
      obtain rfl : behind = byte :: (later ++ otherBehind) := same
      exact (otherPlain (ends byte rfl ▸ List.mem_cons_self)).elim
  | cons byte later inductionHypothesis =>
    cases otherName with
    | nil =>
      obtain rfl : byte :: (later ++ behind) = otherBehind := same
      exact (plain (otherEnds byte rfl ▸ List.mem_cons_self)).elim
    | cons otherByte otherLater =>
      obtain ⟨rfl, sameLater⟩ := List.cons.inj same
      rw [inductionHypothesis (fun isLater => plain (List.mem_cons_of_mem _ isLater))
        (fun isLater => otherPlain (List.mem_cons_of_mem _ isLater)) sameLater]

theorem afterName?_long (text : Bytes) :
    entry.afterName? (45 :: 45 :: text) = some behind ↔
      ∃ long, entry.long = some long ∧ text = long ++ behind := by
  simp only [afterName?, Option.bind_eq_some_iff, Bytes.dropStart?_eq_some_iff]

theorem afterName?_short {text : Bytes} (undashed : text.head? ≠ some 45) :
    entry.afterName? (45 :: text) = some behind ↔
      ∃ short, entry.short = some short ∧ text = short ++ behind := by
  have isShort : entry.afterName? (45 :: text) = entry.short.bind (Bytes.dropStart? text) := by
    rw [afterName?]
    rintro _ ⟨⟩
    exact undashed rfl
  simp only [isShort, Option.bind_eq_some_iff, Bytes.dropStart?_eq_some_iff]

/-- Options that one token calls share a name. -/
theorem clashes_of_called {otherBehind : Bytes}
    (plain : ∀ name ∈ entry.allNames, 61 ∉ name) (otherPlain : ∀ name ∈ other.allNames, 61 ∉ name)
    (called : entry.afterName? token = some behind)
    (otherCalled : other.afterName? token = some otherBehind) (ends : EndsName behind)
    (otherEnds : EndsName otherBehind) : entry.clashes other = true := by
  match token with
  | [] => cases called
  | byte :: text =>
    by_cases isDash : byte = 45
    · subst isDash
      by_cases isLong : text.head? = some 45
      · obtain ⟨later, rfl⟩ : ∃ later, text = 45 :: later := List.head?_eq_some_iff.mp isLong
        obtain ⟨long, hasLong, split⟩ := (afterName?_long later).mp called
        obtain ⟨otherLong, otherHasLong, otherSplit⟩ := (afterName?_long later).mp otherCalled
        have same := name_unique (plain long (by simp [allNames, hasLong]))
          (otherPlain otherLong (by simp [allNames, otherHasLong])) ends otherEnds
          (split.symm.trans otherSplit)
        simp [clashes, hasLong, otherHasLong, same]
      · obtain ⟨short, hasShort, split⟩ := (afterName?_short isLong).mp called
        obtain ⟨otherShort, otherHasShort, otherSplit⟩ := (afterName?_short isLong).mp otherCalled
        have same := name_unique (plain short (by simp [allNames, hasShort]))
          (otherPlain otherShort (by simp [allNames, otherHasShort])) ends otherEnds
          (split.symm.trans otherSplit)
        simp [clashes, hasShort, otherHasShort, same]
    · simp [afterName?, isDash] at called

/-- An option leaves a token alone unless its name ends there. -/
theorem optionValue_ne_absent {rest : List Bytes}
    (met : entry.optionValue token rest ≠ .absent) :
    ∃ behind, entry.afterName? token = some behind ∧ EndsName behind := by
  cases called : entry.afterName? token with
  | none => simp [optionValue, called] at met
  | some behind =>
    refine ⟨behind, rfl, ?_⟩
    intro byte isHead
    obtain ⟨later, rfl⟩ := List.head?_eq_some_iff.mp isHead
    by_cases isEquals : byte = 61
    · exact isEquals
    · simp [optionValue, called, isEquals] at met

end Entry

namespace Spec

variable {spec : Spec ο}

/-- Options that can be told apart by their names. -/
structure WellNamed (spec : Spec ο) : Prop where
  named : ∀ entry ∈ spec.options, entry.isArgument = false
  plain : ∀ entry ∈ spec.options, ∀ name ∈ entry.allNames, name ≠ [] ∧ 61 ∉ name
  undashed : ∀ entry ∈ spec.options, ∀ name ∈ entry.short, name.head? ≠ some 45
  distinct : spec.options.Pairwise fun first second => first.clashes second = false

theorem meet_append {token : Bytes} {rest : List Bytes} {before : List (Counted ο)}
    (unmet : ∀ counted ∈ before, counted.entry.take counted.times token rest = .absent)
    (entries : List (Counted ο)) :
    spec.meet token rest (before ++ entries) =
      (spec.meet token rest entries).map (Route.map (before ++ ·)) := by
  induction before with
  | nil =>
    rw [List.nil_append]
    rcases spec.meet token rest entries with _ | ⟨exit⟩ | ⟨entry, value, left, counted⟩ <;> rfl
  | cons first later inductionHypothesis =>
    have absent := unmet first List.mem_cons_self
    rw [List.cons_append, meet, absent, inductionHypothesis fun counted isLater =>
      unmet counted (List.mem_cons_of_mem _ isLater)]
    rcases spec.meet token rest entries with _ | ⟨exit⟩ | ⟨entry, value, left, counted⟩ <;> rfl

/-- A token that gives a value to an option goes to this option, which takes it unless it was given
before. -/
theorem route_given (wellNamed : spec.WellNamed) {standing : Standing ο}
    (entries : standing.options.map Counted.entry = spec.options)
    {before later : List (Counted ο)} {entry : Entry ο} {times : Nat}
    (place : standing.options = before ++ ⟨entry, times⟩ :: later) {token value : Bytes}
    {rest left : List Bytes} (given : entry.optionValue token rest = .value value left) :
    spec.route standing token rest =
      if decide (0 < times) && !entry.attributes.multiple then
        .rejected (spec.invalid entry token "respecification")
      else .call entry value left
        { standing with options := before ++ ⟨entry, times + 1⟩ :: later } := by
  rw [place, List.map_append, List.map_cons] at entries
  have isEntry : entry ∈ spec.options := by simp [← entries]
  have distinct := wellNamed.distinct
  rw [← entries, List.pairwise_append] at distinct
  have met : entry.optionValue token rest ≠ .absent := by simp [given]
  obtain ⟨behind, called, ends⟩ := Entry.optionValue_ne_absent met
  -- An entry in front that took the token would share a name with this one.
  have unmet : ∀ counted ∈ before, counted.entry.take counted.times token rest = .absent := by
    intro counted isBefore
    have isOption : counted.entry ∈ spec.options := by
      rw [← entries]
      exact List.mem_append_left _ (List.mem_map_of_mem isBefore)
    rw [Entry.take_of_option (wellNamed.named _ isOption)]
    by_cases absent : counted.entry.optionValue token rest = .absent
    · rw [absent]
    · obtain ⟨otherBehind, otherCalled, otherEnds⟩ := Entry.optionValue_ne_absent absent
      have clash := Entry.clashes_of_called
        (fun name isName => (wellNamed.plain _ isOption name isName).2)
        (fun name isName => (wellNamed.plain _ isEntry name isName).2)
        otherCalled called otherEnds ends
      have apart := distinct.2.2 counted.entry (List.mem_map_of_mem isBefore) entry
        List.mem_cons_self
      simp [clash] at apart
  rw [route, place, meet_append unmet, meet, Entry.take_of_option (wellNamed.named _ isEntry),
    given]
  cases decide (0 < times) && !entry.attributes.multiple <;> rfl

end Spec

/-- The ways to give a value to an option that has both names. -/
inductive Spelling
  | shortEquals
  | shortNext
  | longEquals
  | longNext
deriving DecidableEq, Repr

namespace Spelling

/-- The token that calls the option. -/
def caller (short long value : Bytes) : Spelling → Bytes
  | .shortEquals => 45 :: (short ++ 61 :: value)
  | .shortNext => 45 :: short
  | .longEquals => 45 :: 45 :: (long ++ 61 :: value)
  | .longNext => 45 :: 45 :: long

/-- The token behind it, if the value is one of its own. -/
def next (value : Bytes) : Spelling → List Bytes
  | .shortEquals => []
  | .shortNext => [value]
  | .longEquals => []
  | .longNext => [value]

def tokens (short long value : Bytes) (spelling : Spelling) : List Bytes :=
  spelling.caller short long value :: spelling.next value

theorem optionValue_eq {entry : Entry ο} {short long : Bytes} (hasShort : entry.short = some short)
    (hasLong : entry.long = some long) (filled : short ≠ []) (undashed : short.head? ≠ some 45)
    (takesValue : entry.attributes.flag = false ∧ entry.attributes.flagValue = false)
    (value : Bytes) (spelling : Spelling) (back : List Bytes) :
    entry.optionValue (spelling.caller short long value) (spelling.next value ++ back) =
      .value value back := by
  have undashedToo (behind : Bytes) : (short ++ behind).head? ≠ some 45 := by
    obtain ⟨first, later, rfl⟩ := List.exists_cons_of_ne_nil filled
    exact undashed
  cases spelling with
  | shortEquals =>
    have called := (Entry.afterName?_short (undashedToo (61 :: value))).mpr ⟨short, hasShort, rfl⟩
    simp [Entry.optionValue, caller, next, called, takesValue]
  | shortNext =>
    have called := (Entry.afterName?_short undashed).mpr
      ⟨short, hasShort, (List.append_nil short).symm⟩
    simp [Entry.optionValue, caller, next, called, takesValue]
  | longEquals =>
    have called := (Entry.afterName?_long (long ++ 61 :: value)).mpr ⟨long, hasLong, rfl⟩
    simp [Entry.optionValue, caller, next, called, takesValue]
  | longNext =>
    have called := (Entry.afterName?_long long).mpr ⟨long, hasLong, (List.append_nil long).symm⟩
    simp [Entry.optionValue, caller, next, called, takesValue]

end Spelling

namespace Spec

variable {spec : Spec ο}

/-- A turn of reading starts behind `front`, where these tokens are left. -/
def TurnsAt (spec : Spec ο) (state : ο) (front tokens : List Bytes) : Prop :=
  ∃ calls standing, spec.Reaches (spec.start state) (front ++ tokens) calls standing tokens

/-- What becomes of the call and of the tokens behind it does not depend on the spelling. -/
theorem record_spelled (wellNamed : spec.WellNamed) {standing : Standing ο}
    (entries : standing.options.map Counted.entry = spec.options)
    {before later : List (Counted ο)} {entry : Entry ο} {times : Nat}
    (place : standing.options = before ++ ⟨entry, times⟩ :: later) {short long : Bytes}
    (hasShort : entry.short = some short) (hasLong : entry.long = some long)
    (takesValue : entry.attributes.flag = false ∧ entry.attributes.flagValue = false)
    (value : Bytes) (spelling : Spelling) (back : List Bytes) :
    spec.record (spelling.tokens short long value ++ back).length standing
        (spelling.tokens short long value ++ back) =
      if decide (0 < times) && !entry.attributes.multiple then
        ⟨[], some (spec.invalid entry (spelling.caller short long value) "respecification"),
          standing.state⟩
      else match spec.act entry value standing.state with
        | (some exit, state) =>
          ⟨[⟨entry, spelling.tokens short long value, value⟩], some exit, state⟩
        | (none, state) =>
          (spec.record back.length
            ⟨before ++ ⟨entry, times + 1⟩ :: later, standing.arguments, state⟩ back).behind
            [⟨entry, spelling.tokens short long value, value⟩] := by
  have isEntry : entry ∈ spec.options := by simp [← entries, place]
  have filled := (wellNamed.plain entry isEntry short (by simp [Entry.allNames, hasShort])).1
  have undashed := wellNamed.undashed entry isEntry short hasShort
  have given := spelling.optionValue_eq hasShort hasLong filled undashed takesValue value back
  have routed := route_given wellNamed entries place given
  rw [Spelling.tokens, List.cons_append, List.length_cons]
  by_cases again : (decide (0 < times) && !entry.attributes.multiple) = true
  · rw [if_pos again] at routed ⊢
    exact record_of_rejected routed
  · rw [if_neg again] at routed ⊢
    rw [record_of_call routed]
    rcases spec.act entry value standing.state with ⟨_ | exit, state⟩
    · have enough : back.length ≤ (spelling.next value ++ back).length := by
        rw [List.length_append]
        omega
      dsimp only
      rw [record_bound enough (Nat.le_refl _)]
    · rfl

/-- Two command lines call the same actions with the same values, and parsing ends in the same way
for both, but for the token that a complaint about an entry quotes. -/
structure ReadAlike (spec : Spec ο) (state : ο) (tokens others : List Bytes) (entry : Entry ο)
    (quoted otherQuoted : Bytes) : Prop where
  calls : (spec.recordAll state tokens).calls.map Invocation.content =
    (spec.recordAll state others).calls.map Invocation.content
  final : (spec.parse state tokens).2 = (spec.parse state others).2
  exit : (spec.parse state tokens).1 = (spec.parse state others).1 ∨
    (spec.parse state tokens).1 = some (spec.invalid entry quoted "respecification") ∧
      (spec.parse state others).1 = some (spec.invalid entry otherQuoted "respecification")

/-- The same calls leave the same options. -/
theorem readAlike_of_calls {state : ο} {tokens others : List Bytes} {entry : Entry ο}
    {quoted otherQuoted : Bytes}
    (calls : (spec.recordAll state tokens).calls.map Invocation.content =
      (spec.recordAll state others).calls.map Invocation.content)
    (exit : (spec.recordAll state tokens).exit = (spec.recordAll state others).exit ∨
      (spec.recordAll state tokens).exit = some (spec.invalid entry quoted "respecification") ∧
        (spec.recordAll state others).exit =
          some (spec.invalid entry otherQuoted "respecification")) :
    spec.ReadAlike state tokens others entry quoted otherQuoted where
  calls := calls
  final := by
    rw [parse_eq_recordAll, parse_eq_recordAll, state_recordAll, state_recordAll, calls]
  exit := by rwa [parse_eq_recordAll, parse_eq_recordAll]

end Spec

/-- Tokens that give a value to an option can be replaced by any other spelling, wherever a turn of
reading starts with them. -/
theorem parse_respelled {spec : Spec ο} (wellNamed : spec.WellNamed) {entry : Entry ο}
    (isEntry : entry ∈ spec.options) {short long : Bytes} (hasShort : entry.short = some short)
    (hasLong : entry.long = some long)
    (takesValue : entry.attributes.flag = false ∧ entry.attributes.flagValue = false)
    (value : Bytes) (spelling other : Spelling) {front back : List Bytes} {state : ο}
    (turn : spec.TurnsAt state front (spelling.tokens short long value ++ back)) :
    spec.ReadAlike state (front ++ (spelling.tokens short long value ++ back))
      (front ++ (other.tokens short long value ++ back)) entry
      (spelling.caller short long value) (other.caller short long value) := by
  obtain ⟨calls, standing, reaches⟩ := turn
  obtain ⟨split, anywhere⟩ := reaches.anywhere
  obtain rfl := List.append_cancel_right split
  have entries : standing.options.map Counted.entry = spec.options :=
    reaches.entries.trans (by simp [Spec.start, Function.comp_def])
  have recorded (spelled : Spelling) :
      spec.recordAll state
          (calls.flatMap Invocation.tokens ++ (spelled.tokens short long value ++ back)) =
        (spec.record (spelled.tokens short long value ++ back).length standing
          (spelled.tokens short long value ++ back)).behind calls := by
    rw [Spec.recordAll, if_neg (by simp [Spelling.tokens])]
    exact (anywhere _).record
  obtain ⟨counted, isCounted, rfl⟩ := List.mem_map.mp (entries ▸ isEntry)
  obtain ⟨before, later, place⟩ := List.append_of_mem isCounted
  have spelled := Spec.record_spelled wellNamed entries place hasShort hasLong takesValue value
  apply Spec.readAlike_of_calls
  case calls =>
    rw [recorded, recorded, spelled, spelled]
    by_cases again : (decide (0 < counted.times) && !counted.entry.attributes.multiple) = true
    · rw [if_pos again, if_pos again]
      rfl
    · rw [if_neg again, if_neg again]
      rcases spec.act counted.entry value standing.state with ⟨_ | exit, final⟩ <;>
        simp only [Record.behind, List.map_append, List.map_cons, Invocation.content]
  case exit =>
    rw [recorded, recorded, spelled, spelled]
    by_cases again : (decide (0 < counted.times) && !counted.entry.attributes.multiple) = true
    · rw [if_pos again, if_pos again]
      exact .inr ⟨rfl, rfl⟩
    · rw [if_neg again, if_neg again]
      rcases spec.act counted.entry value standing.state with ⟨_ | exit, final⟩ <;> exact .inl rfl

/-- An option that takes any value to the end of a list. -/
def appending (short long : String) : Entry (List Bytes) where
  short := some (ascii short)
  long := some (ascii long)
  type := none
  description := none
  details := none
  attributes := {}
  action := .set fun value values => (none, values ++ [value])

/-- Two options; the names of the second one begin with those of the first. -/
def nestedNames : Spec (List Bytes) where
  title := none
  program := ascii "nested"
  examples := none
  options := [Spec.helpEntry, appending "n" "num", appending "nu" "number"]
  arguments := []

theorem parse_nestedNames :
    nestedNames.ReadAlike [] [ascii "-nu=1", ascii "-n=-nu"]
        [ascii "-nu=1", ascii "--num", ascii "-nu"] (appending "n" "num") (ascii "-n=-nu")
        (ascii "--num") ∧
      nestedNames.parse [] [ascii "-nu=1", ascii "-n=-nu"] = (none, [ascii "1", ascii "-nu"]) := by
  have wellNamed : nestedNames.WellNamed := ⟨by decide, by decide, by decide, by decide⟩
  have isEntry : appending "n" "num" ∈ nestedNames.options := by simp [nestedNames]
  have routed : nestedNames.route (nestedNames.start []) (ascii "-nu=1") ([] ++ [ascii "-n=-nu"]) =
      .call (appending "nu" "number") (ascii "1") [ascii "-n=-nu"]
        ⟨[⟨Spec.helpEntry, 0⟩, ⟨appending "n" "num", 0⟩, ⟨appending "nu" "number", 1⟩], [], []⟩ :=
    rfl
  have turn : nestedNames.TurnsAt [] [ascii "-nu=1"] [ascii "-n=-nu"] :=
    ⟨_, _, .turn routed rfl (.here _ _)⟩
  refine ⟨?_, rfl⟩
  exact parse_respelled wellNamed isEntry rfl rfl ⟨rfl, rfl⟩ (ascii "-nu") .shortEquals .longNext
    turn

end CommandLine

end SpirvInspector
