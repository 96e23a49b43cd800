import SpirvInspector.CommandLine.Parse

/-!
# Steps of reading a command line

Whether an option takes a token depends on the token alone, and of the tokens behind it the option
sees at most the one that it takes for its value. So a step is the same in front of any other
tokens, and it is the same for any other part of the options that no action looks at.
-/

set_option autoImplicit false

namespace SpirvInspector

namespace CommandLine

variable {ο : Type}

namespace Match

/-- How a match that is made in front of `rest` looks at the tokens behind. What is said of all
`others` holds in front of any tokens. -/
inductive LooksAhead (meet : List Bytes → Match) (rest : List Bytes) : Prop
  | absent (others : ∀ others, meet others = .absent)
  | invalid (complaint : String) (here : meet rest = .invalid complaint)
  | value (value : Bytes) (others : ∀ others, meet others = .value value others)
  /-- The next token is the value. -/
  | nextValue {value : Bytes} {later : List Bytes} (next : rest = value :: later)
      (others : ∀ others, meet (value :: others) = .value value others)

end Match

namespace Entry

variable {entry : Entry ο}

theorem optionValue_looksAhead (entry : Entry ο) (token : Bytes) (rest : List Bytes) :
    Match.LooksAhead (entry.optionValue token) rest := by
  cases name : entry.afterName? token with
  | none => exact .absent fun others => by simp only [optionValue, name]
  | some behind =>
    match behind with
    | [] =>
      by_cases single : (entry.attributes.flag || entry.attributes.flagValue) = true
      · exact .value [] fun others => by simp only [optionValue, name, if_pos single]
      · cases rest with
        | nil => exact .invalid _ (by simp only [optionValue, name, if_neg single]; rfl)
        | cons value later =>
          exact .nextValue rfl fun others => by simp only [optionValue, name, if_neg single]
    | byte :: value =>
      by_cases isEquals : byte = 61
      · subst isEquals
        by_cases isFlag : (entry.attributes.flag && !entry.attributes.flagValue) = true
        · exact .invalid _ (by simp only [optionValue, name, if_pos isFlag]; rfl)
        · exact .value value fun others => by simp only [optionValue, name, if_neg isFlag]
      · exact .absent fun others => by simp [optionValue, name, isEquals]

theorem take_of_option (isOption : entry.isArgument = false) (times : Nat) (token : Bytes)
    (rest : List Bytes) :
    entry.take times token rest =
      match entry.optionValue token rest with
      | .value value left =>
        if decide (0 < times) && !entry.attributes.multiple then .invalid "respecification"
        else .value value left
      | other => other := by
  rw [take, isOption]
  rfl

theorem take_looksAhead (entry : Entry ο) (times : Nat) (token : Bytes) (rest : List Bytes) :
    Match.LooksAhead (entry.take times token) rest := by
  by_cases again : (decide (0 < times) && !entry.attributes.multiple) = true
  · cases isArgument : entry.isArgument with
    | true => exact .absent fun tokens => by rw [take, isArgument, if_pos rfl, if_pos again]
    | false =>
      have take_eq := take_of_option isArgument times token
      simp only [if_pos again] at take_eq
      cases entry.optionValue_looksAhead token rest with
      | absent others => exact .absent fun tokens => by simp only [take_eq, others]
      | invalid complaint here => exact .invalid complaint (by simp only [take_eq, here])
      | value value others => exact .invalid _ (by simp only [take_eq, others]; rfl)
      | nextValue next others =>
        subst next
        exact .invalid _ (by simp only [take_eq, others]; rfl)
  · cases isArgument : entry.isArgument with
    | true => exact .value token fun tokens => by rw [take, isArgument, if_pos rfl, if_neg again]
    | false =>
      have take_eq := take_of_option isArgument times token
      simp only [if_neg again] at take_eq
      cases entry.optionValue_looksAhead token rest with
      | absent others => exact .absent fun tokens => by simp only [take_eq, others]
      | invalid complaint here => exact .invalid complaint (by simp only [take_eq, here])
      | value value others => exact .value value fun tokens => by simp only [take_eq, others]
      | nextValue next others =>
        exact .nextValue next fun tokens => by simp only [take_eq, others]

/-- A token that does not look like an option calls no option. -/
theorem take_of_plain (isOption : entry.isArgument = false) (named : entry.short ≠ some [])
    {token : Bytes} (plain : Spec.looksLikeOption token = false) (times : Nat)
    (rest : List Bytes) : entry.take times token rest = .absent := by
  have uncalled : entry.afterName? token = none := by
    match token with
    | [] => rfl
    | [byte] =>
      by_cases isDash : byte = 45
      · subst isDash
        cases short : entry.short with
        | none => simp [afterName?, short]
        | some name =>
          cases name with
          | nil => exact (named short).elim
          | cons first later => simp [afterName?, short, Bytes.dropStart?]
      · simp [afterName?, isDash]
    | byte :: next :: later =>
      by_cases isDash : byte = 45
      · subst isDash
        cases plain
      · simp [afterName?, isDash]
  simp only [take_of_option isOption, optionValue, uncalled]

/-- The action of an entry does not see what `change` changes. -/
def Ignores (entry : Entry ο) (change : ο → ο) : Prop :=
  ∀ setter, entry.action = .set setter → ∀ value options,
    setter value (change options) = ((setter value options).1, change (setter value options).2)

end Entry

/-- Where a token goes: to no entry, with an error, or to one that is called with a value, which
leaves tokens to read and counts how often each entry was given. -/
inductive Route (ο σ : Type)
  | rejected (exit : Exit)
  | call (entry : Entry ο) (value : Bytes) (left : List Bytes) (counts : σ)

namespace Route

def map {σ τ : Type} (recount : σ → τ) : Route ο σ → Route ο τ
  | .rejected exit => .rejected exit
  | .call entry value left counts => .call entry value left (recount counts)

end Route

namespace Spec

variable {spec : Spec ο}

theorem act_set {entry : Entry ο} {setter : Setter ο} (isSetter : entry.action = .set setter)
    (value : Bytes) (options : ο) :
    spec.act entry value options =
      ((setter value options).1.map fun complaint => spec.fail complaint [],
        (setter value options).2) := by
  simp only [act, isSetter]
  rcases setter value options with ⟨_ | complaint, after⟩ <;> rfl

theorem act_change {entry : Entry ο} {change : ο → ο} (ignores : entry.Ignores change)
    (value : Bytes) (options : ο) :
    spec.act entry value (change options) =
      ((spec.act entry value options).1, change (spec.act entry value options).2) := by
  cases action : entry.action with
  | help => simp only [act, action]
  | set setter => rw [act_set action, act_set action, ignores setter action]

theorem step_of_value {entry : Entry ο} {times : Nat} {later : List (Counted ο)} {state : ο}
    {token value : Bytes} {rest left : List Bytes}
    (met : entry.take times token rest = .value value left) :
    spec.step state token rest (⟨entry, times⟩ :: later) =
      match spec.act entry value state with
      | (some exit, options) => .exit exit options
      | (none, options) => .matched left (⟨entry, times + 1⟩ :: later) options := by
  cases acted : spec.act entry value state with
  | mk exit options => cases exit <;> simp only [step, met, acted]

theorem step_of_absent {entry : Entry ο} {times : Nat} {later : List (Counted ο)} {state : ο}
    {token : Bytes} {rest : List Bytes} (unmet : entry.take times token rest = .absent) :
    spec.step state token rest (⟨entry, times⟩ :: later) =
      match spec.step state token rest later with
      | .matched left counted options => .matched left (⟨entry, times⟩ :: counted) options
      | other => other := by
  cases behind : spec.step state token rest later <;> simp only [step, unmet, behind]

/-- The first of several entries that takes a token, before its action is carried out. -/
def meet (spec : Spec ο) (token : Bytes) (rest : List Bytes) :
    List (Counted ο) → Option (Route ο (List (Counted ο)))
  | [] => none
  | ⟨entry, times⟩ :: others =>
    match entry.take times token rest with
    | .invalid complaint => some (.rejected (spec.invalid entry token complaint))
    | .value value left => some (.call entry value left (⟨entry, times + 1⟩ :: others))
    | .absent => (spec.meet token rest others).map (Route.map (⟨entry, times⟩ :: ·))

/-- A step looks for an entry without regard to the options, and then acts. -/
theorem step_eq_meet (state : ο) (token : Bytes) (rest : List Bytes)
    (entries : List (Counted ο)) :
    spec.step state token rest entries =
      match spec.meet token rest entries with
      | none => .unmatched
      | some (.rejected exit) => .exit exit state
      | some (.call entry value left counted) =>
        match spec.act entry value state with
        | (some exit, options) => .exit exit options
        | (none, options) => .matched left counted options := by
  induction entries with
  | nil => rfl
  | cons first later inductionHypothesis =>
    obtain ⟨entry, times⟩ := first
    cases met : entry.take times token rest with
    | invalid complaint => simp only [step, meet, met]
    | value value left => rw [step_of_value met, meet, met]
    | absent =>
      rw [step_of_absent met, inductionHypothesis, meet, met]
      rcases spec.meet token rest later with _ | ⟨exit⟩ | ⟨called, value, left, counted⟩
      · rfl
      · rfl
      · dsimp only [Option.map_some, Route.map]
        rcases spec.act called value state with ⟨_ | exit, options⟩ <;> rfl

theorem meet_eq_none {token : Bytes} {rest : List Bytes} {entries : List (Counted ο)}
    (unmet : spec.meet token rest entries = none) (others : List Bytes) :
    spec.meet token others entries = none := by
  induction entries with
  | nil => rfl
  | cons first later inductionHypothesis =>
    obtain ⟨entry, times⟩ := first
    rw [meet] at unmet ⊢
    cases entry.take_looksAhead times token rest with
    | absent anywhere =>
      rw [anywhere] at unmet ⊢
      rw [inductionHypothesis (Option.map_eq_none_iff.mp unmet)]
      rfl
    | invalid complaint here => simp [here] at unmet
    | value value anywhere => simp [anywhere] at unmet
    | nextValue next anywhere => simp [next, anywhere] at unmet

/-- An entry that is called takes at most one more token, and sees none of those behind it. -/
theorem meet_call {token value : Bytes} {rest left : List Bytes} {entry : Entry ο}
    {entries counted : List (Counted ο)}
    (met : spec.meet token rest entries = some (.call entry value left counted)) :
    entry ∈ entries.map Counted.entry ∧
      counted.map Counted.entry = entries.map Counted.entry ∧
      ∃ taken, rest = taken ++ left ∧ ∀ others,
        spec.meet token (taken ++ others) entries = some (.call entry value others counted) := by
  induction entries generalizing counted with
  | nil => cases met
  | cons first later inductionHypothesis =>
    obtain ⟨here, times⟩ := first
    rw [meet] at met
    simp only [meet]
    cases here.take_looksAhead times token rest with
    | absent anywhere =>
      rw [anywhere] at met
      obtain ⟨route, isRoute, mapped⟩ := Option.map_eq_some_iff.mp met
      cases route with
      | rejected exit => cases mapped
      | call called value left countedBehind =>
        cases mapped
        obtain ⟨isEntry, entries, taken, split, others⟩ := inductionHypothesis isRoute
        refine ⟨List.mem_cons_of_mem _ isEntry, congrArg (here :: ·) entries, taken, split, ?_⟩
        intro tokens
        rw [anywhere, others]
        rfl
    | invalid complaint isInvalid => simp [isInvalid] at met
    | value value anywhere =>
      rw [anywhere] at met
      cases met
      exact ⟨List.mem_cons_self, rfl, [], rfl, fun tokens => by rw [List.nil_append, anywhere]⟩
    | @nextValue value behind next anywhere =>
      rw [next, anywhere] at met
      cases met
      refine ⟨List.mem_cons_self, rfl, [value], next, ?_⟩
      intro tokens
      rw [List.singleton_append, anywhere]

/-- A step that an entry makes is the same in front of any tokens, and in any options that differ in
what the actions ignore. -/
theorem step_matched {state after : ο} {token : Bytes} {rest left : List Bytes}
    {entries counted : List (Counted ο)}
    (matched : spec.step state token rest entries = .matched left counted after) :
    counted.map Counted.entry = entries.map Counted.entry ∧
      ∃ taken, rest = taken ++ left ∧
        ∀ change, (∀ counted ∈ entries, counted.entry.Ignores change) → ∀ others,
          spec.step (change state) token (taken ++ others) entries =
            .matched others counted (change after) := by
  rw [step_eq_meet] at matched
  rcases met : spec.meet token rest entries with _ | ⟨exit⟩ | ⟨entry, value, leftBehind, called⟩
  · simp [met] at matched
  · simp [met] at matched
  · rcases acted : spec.act entry value state with ⟨_ | exit, options⟩
    · simp only [met, acted] at matched
      cases matched
      obtain ⟨isEntry, entries, taken, split, anywhere⟩ := meet_call met
      refine ⟨entries, taken, split, ?_⟩
      intro change ignores others
      obtain ⟨counted, isCounted, rfl⟩ := List.mem_map.mp isEntry
      rw [step_eq_meet, anywhere]
      simp only [act_change (ignores counted isCounted), acted]
    · simp [met, acted] at matched

/-- No option is called by a token that does not look like one. -/
theorem meet_of_plain {token : Bytes} {entries : List (Counted ο)}
    (plain : looksLikeOption token = false)
    (isOption : ∀ counted ∈ entries,
      counted.entry.isArgument = false ∧ counted.entry.short ≠ some []) (rest : List Bytes) :
    spec.meet token rest entries = none := by
  induction entries with
  | nil => rfl
  | cons first later inductionHypothesis =>
    obtain ⟨entry, times⟩ := first
    obtain ⟨notArgument, named⟩ := isOption _ List.mem_cons_self
    have unmet := Entry.take_of_plain notArgument named plain times rest
    rw [meet, unmet, inductionHypothesis fun counted isLater =>
      isOption counted (List.mem_cons_of_mem _ isLater)]
    rfl

theorem step_of_plain {state : ο} {token : Bytes} {entries : List (Counted ο)}
    (plain : looksLikeOption token = false)
    (isOption : ∀ counted ∈ entries,
      counted.entry.isArgument = false ∧ counted.entry.short ≠ some []) (rest : List Bytes) :
    spec.step state token rest entries = .unmatched := by
  rw [step_eq_meet, meet_of_plain plain isOption]

end Spec

end CommandLine

end SpirvInspector
