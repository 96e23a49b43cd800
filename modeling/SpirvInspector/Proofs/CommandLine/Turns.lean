import SpirvInspector.Proofs.CommandLine.Steps

/-!
# Reading a command line turn by turn

A turn takes one token, or an option with the token behind it, and calls one entry. The record of a
reading lists the calls with the tokens that each of them took. A turn does not see the tokens that
are left behind it, so whatever is read in whole turns is read in the same way in front of any other
tokens.
-/

set_option autoImplicit false

namespace SpirvInspector

namespace CommandLine

variable {ο : Type}

/-- Where reading stands: how often each entry was given, and the options of the program. -/
structure Standing (ο : Type) where
  options : List (Counted ο)
  arguments : List (Counted ο)
  state : ο

/-- A call of the action of an entry, with the tokens that were taken for it. -/
structure Invocation (ο : Type) where
  entry : Entry ο
  tokens : List Bytes
  value : Bytes

/-- What an action is called with, whichever tokens say so. -/
def Invocation.content (call : Invocation ο) : Entry ο × Bytes :=
  (call.entry, call.value)

/-- The calls of a reading, and how it ends. -/
structure Record (ο : Type) where
  calls : List (Invocation ο)
  exit : Option Exit
  state : ο

namespace Record

def behind (calls : List (Invocation ο)) (record : Record ο) : Record ο :=
  { record with calls := calls ++ record.calls }

theorem behind_behind (calls later : List (Invocation ο)) (record : Record ο) :
    (record.behind later).behind calls = record.behind (calls ++ later) := by
  simp only [behind, List.append_assoc]

end Record

namespace Spec

variable {spec : Spec ο}

/-- Options come before arguments, and only a token that does not look like an option is left to
arguments. -/
def route (spec : Spec ο) (standing : Standing ο) (token : Bytes) (rest : List Bytes) :
    Route ο (Standing ο) :=
  match spec.meet token rest standing.options with
  | some route => route.map fun options => { standing with options }
  | none =>
    if looksLikeOption token then
      .rejected (spec.fail (token ++ ascii ": unmatched program option") [])
    else match spec.meet token rest standing.arguments with
      | some route => route.map fun arguments => { standing with arguments }
      | none => .rejected (spec.fail (token ++ ascii ": unmatched program argument") [])

theorem readTokens_cons (bound : Nat) (standing : Standing ο) (token : Bytes)
    (rest : List Bytes) :
    spec.readTokens (bound + 1) standing.options standing.arguments standing.state (token :: rest) =
      match spec.route standing token rest with
      | .rejected exit => (some exit, standing.state)
      | .call entry value left next =>
        match spec.act entry value standing.state with
        | (some exit, state) => (some exit, state)
        | (none, state) => spec.readTokens bound next.options next.arguments state left := by
  rw [readTokens, route, step_eq_meet, step_eq_meet]
  rcases spec.meet token rest standing.options with _ | ⟨exit⟩ | ⟨entry, value, left, options⟩
  · cases looksLikeOption token with
    | true => rfl
    | false =>
      rcases spec.meet token rest standing.arguments
        with _ | ⟨exit⟩ | ⟨entry, value, left, arguments⟩
      · rfl
      · rfl
      · simp only [Bool.false_eq_true, if_false, Route.map]
        rcases spec.act entry value standing.state with ⟨_ | exit, state⟩ <;> rfl
  · rfl
  · dsimp only [Route.map]
    rcases spec.act entry value standing.state with ⟨_ | exit, state⟩ <;> rfl

/-- A turn that calls an entry is the same in front of any tokens. -/
theorem route_call {standing next : Standing ο} {token value : Bytes} {rest left : List Bytes}
    {entry : Entry ο} (routed : spec.route standing token rest = .call entry value left next) :
    next.options.map Counted.entry = standing.options.map Counted.entry ∧
      next.arguments.map Counted.entry = standing.arguments.map Counted.entry ∧
      ∃ taken, rest = taken ++ left ∧
        ∀ others, spec.route standing token (taken ++ others) = .call entry value others next := by
  rw [route] at routed
  simp only [route]
  rcases met : spec.meet token rest standing.options
    with _ | ⟨exit⟩ | ⟨called, given, leftBehind, options⟩
  · cases dashed : looksLikeOption token with
    | true => simp [met, dashed] at routed
    | false =>
      rcases metArgument : spec.meet token rest standing.arguments
        with _ | ⟨exit⟩ | ⟨called, given, leftBehind, arguments⟩
      · simp [met, dashed, metArgument] at routed
      · simp [met, dashed, metArgument, Route.map] at routed
      · simp only [met, dashed, metArgument, Route.map] at routed
        cases routed
        obtain ⟨-, entries, taken, split, anywhere⟩ := meet_call metArgument
        refine ⟨rfl, entries, taken, split, ?_⟩
        intro others
        rw [meet_eq_none met, anywhere]
        rfl
  · simp [met, Route.map] at routed
  · simp only [met, Route.map] at routed
    cases routed
    obtain ⟨-, entries, taken, split, anywhere⟩ := meet_call met
    refine ⟨entries, rfl, taken, split, ?_⟩
    intro others
    rw [anywhere]
    rfl

/-- Reads tokens as `readTokens` does, and keeps a record of the calls. A call has taken the tokens
that are not left behind it. -/
def record (spec : Spec ο) : Nat → Standing ο → List Bytes → Record ο
  | 0, standing, _ => ⟨[], spec.conclude standing.options standing.arguments, standing.state⟩
  | _ + 1, standing, [] =>
    ⟨[], spec.conclude standing.options standing.arguments, standing.state⟩
  | bound + 1, standing, token :: rest =>
    match spec.route standing token rest with
    | .rejected exit => ⟨[], some exit, standing.state⟩
    | .call entry value left next =>
      let call := ⟨entry, (token :: rest).take (rest.length + 1 - left.length), value⟩
      match spec.act entry value standing.state with
      | (some exit, state) => ⟨[call], some exit, state⟩
      | (none, state) => (spec.record bound { next with state } left).behind [call]

theorem readTokens_eq_record (bound : Nat) (standing : Standing ο) (tokens : List Bytes) :
    spec.readTokens bound standing.options standing.arguments standing.state tokens =
      ((spec.record bound standing tokens).exit, (spec.record bound standing tokens).state) := by
  induction bound generalizing standing tokens with
  | zero => rfl
  | succ bound inductionHypothesis =>
    cases tokens with
    | nil => rfl
    | cons token rest =>
      rw [readTokens_cons, record]
      rcases spec.route standing token rest with ⟨exit⟩ | ⟨entry, value, left, next⟩
      · rfl
      · dsimp only
        rcases spec.act entry value standing.state with ⟨_ | exit, state⟩
        · exact inductionHypothesis { next with state } left
        · rfl

theorem record_nil (bound : Nat) (standing : Standing ο) :
    spec.record bound standing [] =
      ⟨[], spec.conclude standing.options standing.arguments, standing.state⟩ := by
  cases bound <;> rfl

theorem record_of_rejected {bound : Nat} {standing : Standing ο} {token : Bytes}
    {rest : List Bytes} {exit : Exit} (routed : spec.route standing token rest = .rejected exit) :
    spec.record (bound + 1) standing (token :: rest) = ⟨[], some exit, standing.state⟩ := by
  rw [record, routed]

theorem record_of_call {bound : Nat} {standing next : Standing ο} {token value : Bytes}
    {taken left : List Bytes} {entry : Entry ο}
    (routed : spec.route standing token (taken ++ left) = .call entry value left next) :
    spec.record (bound + 1) standing (token :: (taken ++ left)) =
      match spec.act entry value standing.state with
      | (some exit, state) => ⟨[⟨entry, token :: taken, value⟩], some exit, state⟩
      | (none, state) =>
        (spec.record bound { next with state } left).behind [⟨entry, token :: taken, value⟩] := by
  have isTaken : (token :: (taken ++ left)).take ((taken ++ left).length + 1 - left.length) =
      token :: taken := by
    have length : (taken ++ left).length + 1 - left.length = (token :: taken).length := by
      rw [List.length_append, List.length_cons]
      omega
    rw [length]
    exact List.take_left
  simp only [record, routed, isTaken]

/-- More turns than tokens make no difference. -/
theorem record_bound {bound other : Nat} {standing : Standing ο} {tokens : List Bytes}
    (enough : tokens.length ≤ bound) (enoughToo : tokens.length ≤ other) :
    spec.record bound standing tokens = spec.record other standing tokens := by
  induction bound generalizing other standing tokens with
  | zero =>
    obtain rfl := List.length_eq_zero_iff.mp (Nat.le_zero.mp enough)
    rw [record_nil, record_nil]
  | succ bound inductionHypothesis =>
    match tokens, other with
    | [], other => rw [record_nil, record_nil]
    | token :: rest, other + 1 =>
      cases routed : spec.route standing token rest with
      | rejected exit => rw [record_of_rejected routed, record_of_rejected routed]
      | call entry value left next =>
        obtain ⟨-, -, taken, rfl, -⟩ := route_call routed
        rw [List.length_cons, List.length_append] at enough enoughToo
        rw [record_of_call routed, record_of_call routed]
        rcases spec.act entry value standing.state with ⟨_ | exit, state⟩
        · dsimp only
          rw [inductionHypothesis (by omega) (show left.length ≤ other by omega)]
        · rfl

/-- `Reaches standing tokens calls final left`: whole turns, which make these calls, lead from the
front of `tokens` to that of `left`. -/
inductive Reaches (spec : Spec ο) :
    Standing ο → List Bytes → List (Invocation ο) → Standing ο → List Bytes → Prop
  | here (standing : Standing ο) (tokens : List Bytes) :
      Reaches spec standing tokens [] standing tokens
  | turn {standing next final : Standing ο} {token value : Bytes} {taken left tokens : List Bytes}
      {entry : Entry ο} {state : ο} {calls : List (Invocation ο)}
      (routed : spec.route standing token (taken ++ left) = .call entry value left next)
      (acted : spec.act entry value standing.state = (none, state))
      (later : Reaches spec { next with state } left calls final tokens) :
      Reaches spec standing (token :: (taken ++ left)) (⟨entry, token :: taken, value⟩ :: calls)
        final tokens

namespace Reaches

variable {standing final : Standing ο} {tokens left : List Bytes} {calls : List (Invocation ο)}

theorem entries (reaches : spec.Reaches standing tokens calls final left) :
    final.options.map Counted.entry = standing.options.map Counted.entry := by
  induction reaches with
  | here => rfl
  | turn routed _ _ inductionHypothesis => exact inductionHypothesis.trans (route_call routed).1

/-- The calls have taken the tokens in front, and would take them in front of any others. -/
theorem anywhere (reaches : spec.Reaches standing tokens calls final left) :
    tokens = calls.flatMap Invocation.tokens ++ left ∧ ∀ others,
      spec.Reaches standing (calls.flatMap Invocation.tokens ++ others) calls final others := by
  induction reaches with
  | here standing tokens => exact ⟨rfl, .here standing⟩
  | turn routed acted _ inductionHypothesis =>
    obtain ⟨split, later⟩ := inductionHypothesis
    obtain ⟨-, -, taken, same, others⟩ := route_call routed
    obtain rfl := List.append_cancel_right same
    refine ⟨?_, ?_⟩
    · rw [List.flatMap_cons, List.append_assoc, ← split]
      rfl
    · intro tokens
      rw [List.flatMap_cons, List.append_assoc]
      exact .turn (others _) acted (later tokens)

theorem record (reaches : spec.Reaches standing tokens calls final left) :
    spec.record tokens.length standing tokens =
      (spec.record left.length final left).behind calls := by
  induction reaches with
  | here => rfl
  | @turn standing next final token value taken left tokens entry state calls routed acted _
      inductionHypothesis =>
    have enough : left.length ≤ (taken ++ left).length := by
      rw [List.length_append]
      omega
    rw [List.length_cons, record_of_call routed, acted]
    dsimp only
    rw [record_bound enough (Nat.le_refl _), inductionHypothesis, Record.behind_behind]
    rfl

end Reaches

/-- What holds when a reading ends, and in front of a call when it holds behind it, holds of every
reading. -/
theorem record_induction {motive : Standing ο → List Bytes → Record ο → Prop}
    (done : ∀ standing exit, motive standing [] ⟨[], exit, standing.state⟩)
    (rejected : ∀ standing tokens exit, motive standing tokens ⟨[], some exit, standing.state⟩)
    (exited : ∀ (standing : Standing ο) (call : Invocation ο) left exit state,
      spec.act call.entry call.value standing.state = (some exit, state) →
        motive standing (call.tokens ++ left) ⟨[call], some exit, state⟩)
    (called : ∀ (standing next : Standing ο) (call : Invocation ο) left record,
      spec.act call.entry call.value standing.state = (none, next.state) →
        motive next left record → motive standing (call.tokens ++ left) (record.behind [call]))
    {bound : Nat} {standing : Standing ο} {tokens : List Bytes} (enough : tokens.length ≤ bound) :
    motive standing tokens (spec.record bound standing tokens) := by
  induction bound generalizing standing tokens with
  | zero =>
    obtain rfl := List.length_eq_zero_iff.mp (Nat.le_zero.mp enough)
    exact done standing _
  | succ bound inductionHypothesis =>
    cases tokens with
    | nil => exact done standing _
    | cons token rest =>
      cases routed : spec.route standing token rest with
      | rejected exit =>
        rw [record_of_rejected routed]
        exact rejected standing (token :: rest) exit
      | call entry value left next =>
        obtain ⟨-, -, taken, rfl, -⟩ := route_call routed
        rw [List.length_cons, List.length_append] at enough
        have fewer : left.length ≤ bound := by omega
        rw [record_of_call routed]
        rcases acted : spec.act entry value standing.state with ⟨_ | exit, state⟩
        · exact called standing { next with state } ⟨entry, token :: taken, value⟩ left _ acted
            (inductionHypothesis fewer)
        · exact exited standing ⟨entry, token :: taken, value⟩ left exit state acted

/-- The options of the program are set by the calls alone. -/
theorem state_record {bound : Nat} {standing : Standing ο} {tokens : List Bytes}
    (enough : tokens.length ≤ bound) :
    (spec.record bound standing tokens).state =
      ((spec.record bound standing tokens).calls.map Invocation.content).foldl
        (fun state content => (spec.act content.1 content.2 state).2) standing.state := by
  apply record_induction (motive := fun standing _ record => record.state =
    (record.calls.map Invocation.content).foldl
      (fun state content => (spec.act content.1 content.2 state).2) standing.state)
  case done => exact fun _ _ => rfl
  case rejected => exact fun _ _ _ => rfl
  case exited =>
    intro standing call left exit state acted
    simp only [List.map_cons, List.map_nil, Invocation.content, List.foldl_cons, List.foldl_nil,
      acted]
  case called =>
    intro standing next call left record acted replayed
    simp only [Record.behind, List.singleton_append, List.map_cons, Invocation.content,
      List.foldl_cons, acted]
    exact replayed
  case enough => exact enough

/-- Calls take tokens from the front, and a reading that ends well has taken each of them once. -/
theorem tokens_record {bound : Nat} {standing : Standing ο} {tokens : List Bytes}
    (enough : tokens.length ≤ bound) :
    (spec.record bound standing tokens).calls.flatMap Invocation.tokens <+: tokens ∧
      ((spec.record bound standing tokens).exit = none →
        (spec.record bound standing tokens).calls.flatMap Invocation.tokens = tokens) := by
  apply record_induction (motive := fun _ tokens record =>
    record.calls.flatMap Invocation.tokens <+: tokens ∧
      (record.exit = none → record.calls.flatMap Invocation.tokens = tokens))
  case done => exact fun _ _ => ⟨List.prefix_rfl, fun _ => rfl⟩
  case rejected => exact fun _ _ _ => ⟨List.nil_prefix, nofun⟩
  case exited =>
    intro standing call left exit state _
    refine ⟨?_, nofun⟩
    rw [List.flatMap_singleton]
    exact List.prefix_append call.tokens left
  case called =>
    intro standing next call left record _ ⟨front, whole⟩
    simp only [Record.behind, List.singleton_append, List.flatMap_cons]
    refine ⟨(List.prefix_append_right_inj call.tokens).mpr front, ?_⟩
    intro ended
    rw [whole ended]
  case enough => exact enough

/-- Before any token is read. -/
def start (spec : Spec ο) (state : ο) : Standing ο where
  options := spec.options.map fun entry => ⟨entry, 0⟩
  arguments := spec.arguments.map fun entry => ⟨entry, 0⟩
  state := state

/-- The record of reading a whole command line. -/
def recordAll (spec : Spec ο) (state : ο) (tokens : List Bytes) : Record ο :=
  if tokens.isEmpty then ⟨[], some (spec.help []), state⟩
  else spec.record tokens.length (spec.start state) tokens

theorem parse_eq_recordAll (state : ο) (tokens : List Bytes) :
    spec.parse state tokens =
      ((spec.recordAll state tokens).exit, (spec.recordAll state tokens).state) := by
  unfold parse recordAll
  cases tokens with
  | nil => rfl
  | cons token rest => exact readTokens_eq_record _ (spec.start state) _

theorem state_recordAll (state : ο) (tokens : List Bytes) :
    (spec.recordAll state tokens).state =
      ((spec.recordAll state tokens).calls.map Invocation.content).foldl
        (fun state content => (spec.act content.1 content.2 state).2) state := by
  unfold recordAll
  cases tokens with
  | nil => rfl
  | cons token rest => exact state_record (Nat.le_refl _)

theorem tokens_recordAll {state : ο} {tokens : List Bytes}
    (accepted : (spec.recordAll state tokens).exit = none) :
    (spec.recordAll state tokens).calls.flatMap Invocation.tokens = tokens := by
  unfold recordAll at accepted ⊢
  cases tokens with
  | nil => cases accepted
  | cons token rest => exact (tokens_record (Nat.le_refl _)).2 accepted

end Spec

end CommandLine

end SpirvInspector
