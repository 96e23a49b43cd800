import SpirvInspector.Parse.Frame
import SpirvInspector.Proofs.Decode.Completeness

/-!
# The loop over the operands of an instruction

The loop that reads logical operands, as a relation with one constructor for each way it can go on.
An operand that repeats stays first in line until the window is drained. What the loop reads fills
the logical operands, and whatever fills them and the window is what the loop reads.
-/

set_option autoImplicit false

namespace SpirvInspector

theorem Operand.size_pos (operand : Operand) : 0 < operand.size := by
  cases operand with
  | mk kind value => cases value <;> simp [size, Bytes.stringWords]

theorem Groups.listSize_pos {kinds : List OperandKind} {operands : List Operand}
    (groups : Groups kinds operands) (nonempty : kinds ≠ []) : 0 < Operand.listSize operands := by
  induction groups with
  | nil => exact (nonempty rfl).elim
  | @cons kind parts kinds head inner later opens _ _ parametersHypothesis _ =>
    rw [Operand.listSize_append, Operand.listSize_append]
    have first : 0 < Operand.listSize head ∨ 0 < Operand.listSize inner := by
      cases opens with
      | pair shape => exact .inr (parametersHypothesis (by simp))
      | _ =>
        left
        rw [Operand.listSize_singleton]
        exact Operand.size_pos _
    omega

/-- The places that an instruction keeps apart from its operands. -/
inductive Place
  | type
  | id
deriving DecidableEq, Repr

namespace Place

def kind : Place → OperandKind
  | type => .idResultType
  | id => .idResult

theorem kind_inj {one other : Place} : one.kind = other.kind ↔ one = other := by
  cases one <;> cases other <;> simp [kind]

def operand (place : Place) (word : Word) : Operand :=
  ⟨.listed place.kind, .id word⟩

theorem listSize_operand (place : Place) (word : Word) :
    Operand.listSize [place.operand word] = 1 := rfl

end Place

namespace Draft

def append (draft : Draft) (operands : List Operand) : Draft :=
  { draft with
    operands := draft.operands ++ operands
    cursor := draft.cursor.advance (Operand.listSize operands) }

@[simp] theorem append_nil (draft : Draft) : draft.append [] = draft := by
  simp [append]

@[simp] theorem append_append (draft : Draft) (first second : List Operand) :
    (draft.append first).append second = draft.append (first ++ second) := by
  have operands : draft.operands ++ first ++ second = draft.operands ++ (first ++ second) := by
    apply Array.toList_inj.mp
    simp
  simp [append, operands]

/-- A draft with a word in a place of its own, read from the word at its cursor. -/
def put (draft : Draft) (place : Place) (word : Word) : Draft :=
  match place with
  | .type => { draft with resultType := some word, cursor := draft.cursor.advance 1 }
  | .id => { draft with resultId := some word, cursor := draft.cursor.advance 1 }

@[simp] theorem cursor_put (draft : Draft) (place : Place) (word : Word) :
    (draft.put place word).cursor = draft.cursor.advance 1 := by
  cases place <;> rfl

/-- `Took kind draft next`: an operand of the kind was read, and put where it belongs. -/
inductive Took : OperandKind → Draft → Draft → Prop
  | result {place : Place} {draft : Draft} {word : Word}
      (read : ReadAt draft.cursor [place.operand word]) :
      Took place.kind draft (draft.put place word)
  | group {kind : OperandKind} {draft : Draft} {operands : List Operand}
      (notType : kind ≠ .idResultType) (notId : kind ≠ .idResult)
      (read : ReadAt draft.cursor operands) (groups : Groups [kind] operands) :
      Took kind draft (draft.append operands)

/-- The fault that ends an instruction behind some words that were read. -/
inductive Missed (draft : Draft) : Misfit → Prop
  | fault {read words : Nat} {kind : OperandKind} {fault : Fault}
      (within : read ≤ draft.cursor.limitRemaining)
      (failed : HeadFault kind (draft.cursor.advance read) fault words) :
      Missed draft (.fault fault)

theorem operand_of_ne {kind : OperandKind} (draft : Draft) (notType : kind ≠ .idResultType)
    (notId : kind ≠ .idResult) :
    draft.operand kind =
      match (kind.decode draft.cursor).fault with
      | some fault => .error (.fault fault)
      | none =>
        .ok { draft with
          operands := draft.operands ++ (kind.decode draft.cursor).operands
          cursor := (kind.decode draft.cursor).cursor } := by
  unfold operand
  split
  · exact (notType rfl).elim
  · exact (notId rfl).elim
  · rfl

theorem operand_of_nextWord {draft : Draft} {word : Word} (place : Place)
    (read : draft.cursor.nextWord = (.ok word, draft.cursor.advance 1)) :
    draft.operand place.kind = .ok (draft.put place word) := by
  cases place <;> simp only [Place.kind, operand, read, put]

theorem operand_of_exhaustion {draft : Draft} {fault : Fault} {cursor : Cursor} (place : Place)
    (failed : draft.cursor.nextWord = (.error fault, cursor)) :
    draft.operand place.kind = .error (.fault fault) := by
  cases place <;> simp only [Place.kind, operand, failed]

theorem operand_cases (kind : OperandKind) (draft : Draft) :
    (∃ next, draft.operand kind = .ok next ∧ Took kind draft next) ∨
      (∃ misfit, draft.operand kind = .error misfit ∧ Missed draft misfit) := by
  by_cases isResult : ∃ place : Place, place.kind = kind
  · obtain ⟨place, rfl⟩ := isResult
    rcases draft.cursor.nextWord_cases with ⟨available, word, read, bytes⟩ | ⟨drained, failed⟩
    · exact .inl ⟨_, operand_of_nextWord place read, .result (.ofWord rfl available bytes)⟩
    · refine .inr ⟨_, operand_of_exhaustion place failed, ?_⟩
      have here : HeadFault place.kind (draft.cursor.advance 0) _ _ := .exhausted fun _ => by simpa
      simpa [drained] using Missed.fault (Nat.zero_le _) here
  · have notType : kind ≠ .idResultType := fun isType => isResult ⟨.type, isType.symm⟩
    have notId : kind ≠ .idResult := fun isId => isResult ⟨.id, isId.symm⟩
    have decoded := kind.decode_decodedAs draft.cursor
    rw [operand_of_ne draft notType notId]
    generalize kind.decode draft.cursor = result at decoded ⊢
    cases decoded with
    | complete read groups => exact .inl ⟨_, rfl, .group notType notId read groups⟩
    | failed read failed => exact .inr ⟨_, rfl, .fault read.within failed⟩

/-- The loop over logical operands: one constructor for each way it can go on. -/
inductive Runs : List LogicalOperand → Draft → Except Misfit Draft → Prop
  | done {draft : Draft} : Runs [] draft (.ok draft)
  | missing {logical : LogicalOperand} {later : List LogicalOperand} {draft : Draft}
      (drained : draft.cursor.limitReached = true) (required : logical.quantifier = .one) :
      Runs (logical :: later) draft (.error (.expected draft.cursor.offset))
  | absent {logical : LogicalOperand} {later : List LogicalOperand} {draft : Draft}
      (drained : draft.cursor.limitReached = true) (optional : logical.quantifier ≠ .one) :
      Runs (logical :: later) draft (.ok draft)
  | fault {logical : LogicalOperand} {later : List LogicalOperand} {draft : Draft} {misfit : Misfit}
      (remains : draft.cursor.limitReached = false)
      (failed : draft.operand logical.kind = .error misfit) :
      Runs (logical :: later) draft (.error misfit)
  | once {logical : LogicalOperand} {later : List LogicalOperand} {draft next : Draft}
      {result : Except Misfit Draft} (remains : draft.cursor.limitReached = false)
      (single : logical.quantifier ≠ .zeroOrMore) (read : draft.operand logical.kind = .ok next)
      (others : Runs later next result) : Runs (logical :: later) draft result
  /-- An operand that repeats keeps its place in the list. -/
  | again {logical : LogicalOperand} {later : List LogicalOperand} {draft next : Draft}
      {result : Except Misfit Draft} (remains : draft.cursor.limitReached = false)
      (repeats : logical.quantifier = .zeroOrMore) (read : draft.operand logical.kind = .ok next)
      (others : Runs (logical :: later) next result) : Runs (logical :: later) draft result

namespace Took

variable {kind : OperandKind} {draft next : Draft}

theorem cursor_eq (took : Took kind draft next) :
    ∃ words, 0 < words ∧ words ≤ draft.cursor.limitRemaining ∧
      next.cursor = draft.cursor.advance words := by
  cases took with
  | result read => exact ⟨1, Nat.one_pos, read.within, cursor_put _ _ _⟩
  | group notType notId read groups =>
    exact ⟨_, groups.listSize_pos (by simp), read.within, rfl⟩

theorem group_of_ne (took : Took kind draft next) (notType : kind ≠ .idResultType)
    (notId : kind ≠ .idResult) :
    ∃ operands, ReadAt draft.cursor operands ∧ Groups [kind] operands ∧
      next = draft.append operands := by
  cases took with
  | @result place _ _ read =>
    cases place with
    | type => exact (notType rfl).elim
    | id => exact (notId rfl).elim
  | group _ _ read groups => exact ⟨_, read, groups, rfl⟩

theorem put_of_kind {place : Place} (took : Took place.kind draft next) :
    ∃ word, ReadAt draft.cursor [place.operand word] ∧ next = draft.put place word := by
  generalize isKind : place.kind = kind at took
  cases took with
  | @result other _ word read =>
    cases Place.kind_inj.mp isKind
    exact ⟨word, read, rfl⟩
  | group notType notId =>
    cases place with
    | type => exact (notType isKind.symm).elim
    | id => exact (notId isKind.symm).elim

theorem windowed (took : Took kind draft next) (windowed : draft.cursor.Windowed) :
    next.cursor.Windowed := by
  obtain ⟨taken, -, -, cursor⟩ := took.cursor_eq
  rw [cursor]
  exact windowed.advance taken

end Took

theorem took_of_operand {kind : OperandKind} {draft next : Draft}
    (read : draft.operand kind = .ok next) : Took kind draft next := by
  rcases draft.operand_cases kind with ⟨other, isRead, took⟩ | ⟨misfit, failed, -⟩
  · rw [read] at isRead
    cases isRead
    exact took
  · rw [read] at failed
    cases failed

theorem missed_of_operand {kind : OperandKind} {draft : Draft} {misfit : Misfit}
    (failed : draft.operand kind = .error misfit) : Missed draft misfit := by
  rcases draft.operand_cases kind with ⟨next, isRead, -⟩ | ⟨other, isFailed, missed⟩
  · rw [failed] at isRead
    cases isRead
  · rw [failed] at isFailed
    cases isFailed
    exact missed

/-- The first of several groups that fill the window is read, and the others fill what is left. Only
a number that takes the rest of the window must have nothing behind it. -/
theorem operand_of_front {kind : OperandKind} {draft : Draft} {first operands : List Operand}
    (notType : kind ≠ .idResultType) (notId : kind ≠ .idResult) (group : Groups [kind] first)
    (windowed : draft.cursor.Windowed) (read : ReadAt draft.cursor (first ++ operands))
    (filled : Operand.listSize (first ++ operands) = draft.cursor.limitRemaining)
    (closing : kind.shape = .contextNumber → operands = []) :
    draft.cursor.limitReached = false ∧ draft.operand kind = .ok (draft.append first) ∧
      Operand.listSize operands = (draft.append first).cursor.limitRemaining := by
  have positive := group.listSize_pos (by simp)
  rw [Operand.listSize_append] at filled
  have alone : kind.shape = .contextNumber →
      Operand.listSize first = draft.cursor.limitRemaining := by
    intro isContext
    rw [closing isContext, Operand.listSize_nil] at filled
    exact filled
  refine ⟨windowed.limitReached_eq_false_iff.mpr (by omega), ?_, ?_⟩
  · rw [operand_of_ne draft notType notId,
      OperandKind.decode_of_groups group windowed.little read.front alone]
    rfl
  · rw [append, Cursor.limitRemaining_advance]
    omega

/-- As many rounds as there are words drain the window. -/
theorem repeated_runs {logical : LogicalOperand} {later : List LogicalOperand}
    (repeats : logical.quantifier = .zeroOrMore) {words : Nat} {draft : Draft}
    (windowed : draft.cursor.Windowed) (enough : draft.cursor.limitRemaining ≤ words) :
    Runs (logical :: later) draft (draft.repeated logical.kind words) := by
  have optional : logical.quantifier ≠ .one := by simp [repeats]
  induction words generalizing draft with
  | zero => exact .absent (windowed.limitReached_iff.mpr (by omega)) optional
  | succ words inductionHypothesis =>
    unfold repeated
    split
    · next drained => exact .absent drained optional
    · next remains =>
      rw [Bool.not_eq_true] at remains
      cases read : draft.operand logical.kind with
      | error misfit => exact .fault remains read
      | ok next =>
        have took := took_of_operand read
        obtain ⟨taken, positive, within, cursor⟩ := took.cursor_eq
        apply Runs.again remains repeats read
        apply inductionHypothesis (took.windowed windowed)
        rw [cursor, Cursor.limitRemaining_advance]
        omega

theorem operandList_runs (logicals : List LogicalOperand) {draft : Draft}
    (windowed : draft.cursor.Windowed) : Runs logicals draft (operandList logicals draft) := by
  induction logicals generalizing draft with
  | nil => exact .done
  | cons logical later inductionHypothesis =>
    unfold operandList
    split
    · next drained =>
      split
      · next required => exact .missing drained required
      · next optional => exact .absent drained optional
    · next remains =>
      rw [Bool.not_eq_true] at remains
      split
      · next repeats =>
        apply repeated_runs repeats windowed
        rw [windowed.limited]
        exact Nat.le_refl _
      · next single =>
        cases read : draft.operand logical.kind with
        | error misfit => exact .fault remains read
        | ok next =>
          exact .once remains single read
            (inductionHypothesis ((took_of_operand read).windowed windowed))

namespace Runs

variable {logicals : List LogicalOperand} {draft next : Draft}

theorem unique {first second : Except Misfit Draft} (one : Runs logicals draft first)
    (two : Runs logicals draft second) : first = second := by
  induction one with
  | done =>
    cases two
    rfl
  | missing drained required => cases two <;> simp_all
  | absent drained optional => cases two <;> simp_all
  | fault remains failed => cases two <;> simp_all
  | once remains single read _ inductionHypothesis =>
    cases two with
    | once _ _ readToo others =>
      rw [read] at readToo
      cases readToo
      exact inductionHypothesis others
    | _ => simp_all
  | again remains repeats read _ inductionHypothesis =>
    cases two with
    | again _ _ readToo others =>
      rw [read] at readToo
      cases readToo
      exact inductionHypothesis others
    | _ => simp_all

theorem operandList_eq {result : Except Misfit Draft} (windowed : draft.cursor.Windowed)
    (runs : Runs logicals draft result) : operandList logicals draft = result :=
  (operandList_runs logicals windowed).unique runs

/-- What is read fills the logical operands, where these have no place of their own. -/
theorem fills (runs : Runs logicals draft (.ok next))
    (plain : ∀ logical ∈ logicals, logical.isResult = false) :
    ∃ operands, ReadAt draft.cursor operands ∧ Fills logicals none none operands ∧
      next = draft.append operands := by
  generalize isOk : Except.ok next = result at runs
  induction runs with
  | done =>
    cases isOk
    exact ⟨[], .nil _, .done, by simp⟩
  | missing => cases isOk
  | absent drained optional =>
    cases isOk
    exact ⟨[], .nil _, .absent optional, by simp⟩
  | fault => cases isOk
  | @once logical later draft _ _ remains single read others inductionHypothesis =>
    have isPlain := plain logical List.mem_cons_self
    obtain ⟨notType, notId⟩ := logical.isResult_eq_false_iff.mp isPlain
    obtain ⟨first, readFirst, groups, rfl⟩ := (took_of_operand read).group_of_ne notType notId
    obtain ⟨operands, readOthers, fills, rfl⟩ := inductionHypothesis
      (fun other isOther => plain other (List.mem_cons_of_mem _ isOther)) isOk
    exact ⟨first ++ operands, readFirst.append readOthers, .group notType notId groups fills,
      by simp⟩
  | @again logical later draft _ _ remains repeats read others inductionHypothesis =>
    have isPlain := plain logical List.mem_cons_self
    obtain ⟨notType, notId⟩ := logical.isResult_eq_false_iff.mp isPlain
    obtain ⟨first, readFirst, groups, rfl⟩ := (took_of_operand read).group_of_ne notType notId
    obtain ⟨operands, readOthers, fills, rfl⟩ := inductionHypothesis plain isOk
    obtain ⟨kind, quantifier⟩ := logical
    cases repeats
    exact ⟨first ++ operands, readFirst.append readOthers, .another notType notId groups fills,
      by simp⟩

theorem cursor_eq (runs : Runs logicals draft (.ok next)) :
    ∃ words ≤ draft.cursor.limitRemaining, next.cursor = draft.cursor.advance words := by
  generalize isOk : Except.ok next = result at runs
  induction runs with
  | done =>
    cases isOk
    exact ⟨0, Nat.zero_le _, by simp⟩
  | missing => cases isOk
  | absent drained optional =>
    cases isOk
    exact ⟨0, Nat.zero_le _, by simp⟩
  | fault => cases isOk
  | once _ _ read _ inductionHypothesis | again _ _ read _ inductionHypothesis =>
    obtain ⟨taken, -, within, cursor⟩ := (took_of_operand read).cursor_eq
    obtain ⟨words, behind, rest⟩ := inductionHypothesis isOk
    rw [cursor, Cursor.limitRemaining_advance] at behind
    rw [cursor, Cursor.advance_advance] at rest
    exact ⟨taken + words, by omega, rest⟩

/-- Why a run ends early: the window ends at an operand that must be present, or there is a fault in
it. -/
theorem misfit {misfit : Misfit} (windowed : draft.cursor.Windowed)
    (runs : Runs logicals draft (.error misfit)) :
    misfit = .expected (draft.cursor.offset + 4 * draft.cursor.limitRemaining) ∨
      Missed draft misfit := by
  generalize isError : Except.error misfit = result at runs
  induction runs with
  | done => cases isError
  | missing drained required =>
    cases isError
    rw [windowed.limitReached_iff] at drained
    exact .inl (by simp [drained])
  | absent => cases isError
  | fault remains failed =>
    cases isError
    exact .inr (missed_of_operand failed)
  | once _ _ read _ inductionHypothesis | again _ _ read _ inductionHypothesis =>
    have took := took_of_operand read
    obtain ⟨taken, -, within, cursor⟩ := took.cursor_eq
    rcases inductionHypothesis (took.windowed windowed) isError with expected | missed
    · left
      rw [expected, cursor, Cursor.offset_advance, Cursor.limitRemaining_advance]
      congr 1
      omega
    · right
      cases missed with
      | fault behind failed =>
        rw [cursor, Cursor.limitRemaining_advance] at behind
        rw [cursor, Cursor.advance_advance] at failed
        exact .fault (by omega) failed

theorem of_fills {resultType resultId : Option Word} {operands : List Operand}
    (fills : Fills logicals resultType resultId operands) (closed : ClosedBody logicals)
    (windowed : draft.cursor.Windowed) (read : ReadAt draft.cursor operands)
    (filled : Operand.listSize operands = draft.cursor.limitRemaining) :
    Runs logicals draft (.ok (draft.append operands)) := by
  induction fills generalizing draft with
  | done => simpa using Runs.done
  | absent optional =>
    have drained := windowed.limitReached_iff.mpr filled.symm
    simpa using Runs.absent drained optional
  | resultType type others inductionHypothesis => cases closed.1
  | resultId id others inductionHypothesis => cases closed.1
  | @group kind quantifier later _ _ first operands notType notId group others
      inductionHypothesis =>
    obtain ⟨-, last, -, laterClosed⟩ := closed
    have noneBehind (openEnded : LogicalOperand.isOpenEnded ⟨kind, quantifier⟩ = true) :
        operands = [] := by
      rw [last openEnded] at others
      cases others
      rfl
    obtain ⟨remains, isRead, filledBehind⟩ := operand_of_front notType notId group windowed read
      filled fun isContext => noneBehind (by simp [LogicalOperand.isOpenEnded, isContext])
    rw [← append_append]
    by_cases repeats : quantifier = .zeroOrMore
    · -- A single group of a repeated operand: the window is drained behind it.
      have none := noneBehind (by simp [LogicalOperand.isOpenEnded, repeats])
      subst none
      have drained := (windowed.advance _).limitReached_iff.mpr filledBehind.symm
      apply Runs.again remains repeats isRead
      rw [append_nil]
      exact .absent drained (by simp [repeats])
    · exact .once remains repeats isRead
        (inductionHypothesis laterClosed (windowed.advance _) read.back filledBehind)
  | another notType notId group others inductionHypothesis =>
    obtain ⟨remains, isRead, filledBehind⟩ := operand_of_front notType notId group windowed read
      filled fun isContext => by cases closed.2.2.1 isContext
    rw [← append_append]
    exact .again remains rfl isRead
      (inductionHypothesis closed (windowed.advance _) read.back filledBehind)

theorem put_iff (place : Place) (windowed : draft.cursor.Windowed) :
    Runs (InstructionForm.one place.kind :: logicals) draft (.ok next) ↔
      ∃ word, ReadAt draft.cursor [place.operand word] ∧
        Runs logicals (draft.put place word) (.ok next) := by
  constructor
  · intro runs
    cases runs with
    | absent drained optional => exact (optional rfl).elim
    | once remains single read others =>
      obtain ⟨word, readWord, rfl⟩ := (took_of_operand read).put_of_kind
      exact ⟨word, readWord, others⟩
    | again remains repeats => cases repeats
  · rintro ⟨word, read, others⟩
    have remains := windowed.limitReached_eq_false_iff.mpr read.within
    have isRead := operand_of_nextWord place
      (Cursor.nextWord_of_readAt word windowed.little rfl read)
    exact .once remains (by simp [InstructionForm.one]) isRead others

end Runs

end Draft

end SpirvInspector
