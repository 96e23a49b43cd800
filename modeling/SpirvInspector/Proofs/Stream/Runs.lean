import SpirvInspector.Proofs.Decode.Confinement
import SpirvInspector.Proofs.Stream.Counters

/-!
# Runs of a cursor

A cursor is read and its limit is set and cleared in any order, and a read that fails does not end
the run. All that a read does is to go some words further, never more than remain. So the cursor
stays inside its bytes, and what is left of a limit is exactly what was not read since it was set.
-/

set_option autoImplicit false

namespace SpirvInspector

/-- A read is told here by its fault alone. -/
def Reading.outcome {α : Type} : Reading α → Reading Unit
  | (.ok _, cursor) => (.ok (), cursor)
  | (.error fault, cursor) => (.error fault, cursor)

theorem Reading.outcome_snd {α : Type} (reading : Reading α) : reading.outcome.2 = reading.2 := by
  rcases reading with ⟨_ | _, _⟩ <;> rfl

theorem Reading.outcome_fst_eq_error_iff {α : Type} {reading : Reading α} {fault : Fault} :
    reading.outcome.1 = .error fault ↔ reading.1 = .error fault := by
  rcases reading with ⟨_ | _, _⟩ <;> simp [Reading.outcome]

def Decoded.outcome (decoded : Decoded) : Reading Unit :=
  match decoded.fault with
  | none => (.ok (), decoded.cursor)
  | some fault => (.error fault, decoded.cursor)

theorem Decoded.outcome_snd (decoded : Decoded) : decoded.outcome.2 = decoded.cursor := by
  rw [Decoded.outcome]
  split <;> rfl

namespace Cursor

inductive Read
  | word
  | identifier
  | peek
  | words (count : Nat)
  | string
  | operand (kind : OperandKind)
deriving DecidableEq

namespace Read

/-- An identifier is a word. -/
def perform (cursor : Cursor) : Read → Reading Unit
  | word => cursor.nextWord.outcome
  | identifier => cursor.nextWord.outcome
  | peek => Reading.outcome (cursor.peekWord, cursor)
  | words count => (cursor.nextWords count).outcome
  | string => cursor.nextString.outcome
  | operand kind => (kind.decode cursor).outcome

/-- Reads that take all of their words or none. -/
def isAtomic : Read → Bool
  | word => true
  | identifier => true
  | peek => true
  | words _ => true
  | string => false
  | operand _ => false

end Read

inductive Operation
  | read (request : Read)
  | setLimit (words : Nat)
  | clearLimit
deriving DecidableEq

namespace Operation

def perform (cursor : Cursor) : Operation → Reading Unit
  | .read request => request.perform cursor
  | .setLimit words => (.ok (), cursor.setLimit words)
  | .clearLimit => (.ok (), cursor.clearLimit)

def isRead : Operation → Bool
  | .read _ => true
  | _ => false

/-- A limit that is set is a word of 64 bits. -/
def Fits : Operation → Prop
  | .setLimit words => words < 2 ^ 64
  | _ => True

end Operation

/-- The cursor behind some operations, of which any may have failed. -/
def run (cursor : Cursor) (operations : List Operation) : Cursor :=
  operations.foldl (fun cursor operation => (operation.perform cursor).2) cursor

/-- The cursor is no more words further on than remained. -/
def Reaches (cursor behind : Cursor) : Prop :=
  ∃ words, words ≤ cursor.limitRemaining ∧ behind = cursor.advance words

namespace Reaches

variable {cursor middle behind : Cursor}

theorem refl (cursor : Cursor) : cursor.Reaches cursor :=
  ⟨0, Nat.zero_le _, cursor.advance_zero.symm⟩

theorem trans (first : cursor.Reaches middle) (second : middle.Reaches behind) :
    cursor.Reaches behind := by
  obtain ⟨words, within, rfl⟩ := first
  obtain ⟨more, moreWithin, rfl⟩ := second
  rw [limitRemaining_advance] at moreWithin
  exact ⟨words + more, by omega, cursor.advance_advance words more⟩

end Reaches

theorem reaches_nextWord (cursor : Cursor) : cursor.Reaches cursor.nextWord.2 := by
  rcases cursor.nextWord_cases with ⟨available, word, read, -⟩ | ⟨-, read⟩
  · exact ⟨1, available, by rw [read]⟩
  · rw [read]
    exact .refl cursor

theorem reaches_nextWords (cursor : Cursor) (words : Nat) :
    cursor.Reaches (cursor.nextWords words).2 := by
  rw [nextWords]
  split
  · exact .refl cursor
  · next accepted =>
    exact ⟨words, (cursor.refusal_eq_none_iff words).mp accepted, rfl⟩

theorem reaches_nextString (cursor : Cursor) : cursor.Reaches cursor.nextString.2 := by
  have reading := cursor.nextString_reading
  generalize cursor.nextString = read at reading ⊢
  cases reading with
  | terminated text filler nulFree within bytes => exact ⟨text.stringWords, within, rfl⟩
  | unterminated nulFree => exact ⟨cursor.limitRemaining, Nat.le_refl _, rfl⟩

theorem reaches_decode (kind : OperandKind) (cursor : Cursor) :
    cursor.Reaches (kind.decode cursor).cursor := by
  have decoded := kind.decode_decodedAs cursor
  generalize kind.decode cursor = result at decoded ⊢
  cases decoded with
  | complete read groups => exact ⟨_, read.within, rfl⟩
  | failed read failed =>
    have within := failed.within
    have started := read.within
    rw [limitRemaining_advance] at within
    exact ⟨_, by omega, rfl⟩

/-- What a read can do, failed or not. -/
theorem reaches_read (read : Read) (cursor : Cursor) : cursor.Reaches (read.perform cursor).2 := by
  cases read with
  | word | identifier =>
    rw [Read.perform, Reading.outcome_snd]
    exact reaches_nextWord cursor
  | peek =>
    rw [Read.perform, Reading.outcome_snd]
    exact .refl cursor
  | words count =>
    rw [Read.perform, Reading.outcome_snd]
    exact reaches_nextWords cursor count
  | string =>
    rw [Read.perform, Reading.outcome_snd]
    exact reaches_nextString cursor
  | operand kind =>
    rw [Read.perform, Decoded.outcome_snd]
    exact reaches_decode kind cursor

theorem nextWord_unmoved {cursor : Cursor} {fault : Fault}
    (failed : cursor.nextWord.1 = .error fault) : cursor.nextWord.2 = cursor := by
  rcases cursor.nextWord_cases with ⟨-, word, read, -⟩ | ⟨-, read⟩
  · rw [read] at failed
    cases failed
  · rw [read]

theorem nextWords_unmoved {cursor : Cursor} {words : Nat} {fault : Fault}
    (failed : (cursor.nextWords words).1 = .error fault) :
    (cursor.nextWords words).2 = cursor := by
  rw [nextWords] at failed ⊢
  cases refused : cursor.refusal words with
  | some _ => rfl
  | none =>
    rw [refused] at failed
    cases failed

theorem unmoved_of_atomic {read : Read} (atomic : read.isAtomic = true) {cursor : Cursor}
    {fault : Fault} (failed : (read.perform cursor).1 = .error fault) :
    (read.perform cursor).2 = cursor := by
  cases read with
  | word | identifier =>
    rw [Read.perform, Reading.outcome_snd]
    exact nextWord_unmoved (Reading.outcome_fst_eq_error_iff.mp failed)
  | peek => rw [Read.perform, Reading.outcome_snd]
  | words count =>
    rw [Read.perform, Reading.outcome_snd]
    exact nextWords_unmoved (Reading.outcome_fst_eq_error_iff.mp failed)
  | string | operand _ => cases atomic

theorem nextWords_isOk_iff (cursor : Cursor) (words : Nat) :
    (∃ values, (cursor.nextWords words).1 = .ok values) ↔ words ≤ cursor.limitRemaining := by
  rw [← cursor.refusal_eq_none_iff, nextWords]
  cases cursor.refusal words <;> simp

/-! ## Whole runs -/

theorem run_append (cursor : Cursor) (earlier later : List Operation) :
    cursor.run (earlier ++ later) = (cursor.run earlier).run later :=
  List.foldl_append

theorem offset_le_perform (operation : Operation) (cursor : Cursor) :
    cursor.offset ≤ (operation.perform cursor).2.offset := by
  cases operation with
  | read read =>
    obtain ⟨words, -, behind⟩ := reaches_read read cursor
    rw [Operation.perform, behind, offset_advance]
    exact Nat.le_add_right _ _
  | setLimit _ | clearLimit => exact Nat.le_refl _

theorem offset_le_run (cursor : Cursor) (operations : List Operation) :
    cursor.offset ≤ (cursor.run operations).offset :=
  List.foldlRecOn operations _ (motive := fun behind => cursor.offset ≤ behind.offset)
    (Nat.le_refl _)
    fun behind sofar operation _ => Nat.le_trans sofar (offset_le_perform operation behind)

namespace Placed

variable {bytes : Bytes} {cursor : Cursor}

theorem perform (placed : cursor.Placed bytes) (operation : Operation) :
    (operation.perform cursor).2.Placed bytes := by
  cases operation with
  | read read =>
    obtain ⟨words, within, behind⟩ := reaches_read read cursor
    rw [Operation.perform, behind]
    exact placed.advance within
  | setLimit _ | clearLimit => exact ⟨placed.aligned, placed.inside, placed.rest⟩

theorem run (placed : cursor.Placed bytes) (operations : List Operation) :
    (cursor.run operations).Placed bytes :=
  List.foldlRecOn operations _ placed fun _ sofar operation _ => sofar.perform operation

end Placed

/-- Reads alone go no further than the words that remained in front of the first of them. -/
theorem reaches_run (cursor : Cursor) {operations : List Operation}
    (reads : ∀ operation ∈ operations, operation.isRead = true) :
    cursor.Reaches (cursor.run operations) := by
  refine List.foldlRecOn operations _ (.refl cursor) fun behind sofar operation among => ?_
  cases operation with
  | read request => exact sofar.trans (reaches_read request behind)
  | setLimit _ | clearLimit => nomatch reads _ among

/-- A limit covers what was read since it was set and what is left of it. -/
theorem run_setLimit (cursor : Cursor) (words : Nat) {later : List Operation}
    (reads : ∀ operation ∈ later, operation.isRead = true) :
    ∃ taken left, (cursor.run (.setLimit words :: later)).offset = cursor.offset + 4 * taken ∧
      (cursor.run (.setLimit words :: later)).limit = some left ∧ words = taken + left := by
  obtain ⟨taken, within, behind⟩ := reaches_run (cursor.setLimit words) reads
  have begun : cursor.run (.setLimit words :: later) = (cursor.setLimit words).run later := rfl
  rw [limitRemaining_of_some rfl] at within
  refine ⟨taken, words - taken, ?_, ?_, by omega⟩
  · rw [begun, behind]
    rfl
  · rw [begun, behind]
    rfl

theorem Reaches.limit_lt {cursor behind : Cursor} (reaches : cursor.Reaches behind) {bound : Nat}
    (limited : ∀ words ∈ cursor.limit, words < bound) : ∀ words ∈ behind.limit, words < bound := by
  obtain ⟨taken, -, rfl⟩ := reaches
  intro words left
  rw [advance, Option.mem_def, Option.map_eq_some_iff] at left
  obtain ⟨set, limit, rfl⟩ := left
  exact Nat.lt_of_le_of_lt (Nat.sub_le set taken) (limited set limit)

theorem run_limit_lt {cursor : Cursor} {operations : List Operation}
    (unlimited : cursor.limit = none) (fit : ∀ operation ∈ operations, operation.Fits) :
    ∀ words ∈ (cursor.run operations).limit, words < 2 ^ 64 := by
  refine List.foldlRecOn operations _
    (motive := fun behind : Cursor => ∀ words ∈ behind.limit, words < 2 ^ 64)
    (by simp [unlimited]) fun behind sofar operation among => ?_
  cases operation with
  | read request => exact (reaches_read request behind).limit_lt sofar
  | setLimit words =>
    intro left isLeft
    obtain rfl : words = left := Option.some.inj isLeft
    exact fit _ among
  | clearLimit =>
    intro left isLeft
    nomatch isLeft

/-- What holds of a cursor over `bytes` behind some operations. -/
structure Kept (bytes : Bytes) (order : ByteOrder) (operations : List Operation)
    (cursor : Cursor) : Prop where
  placed : cursor.Placed bytes
  bytesLeft : cursor.bytesLeft = bytes.length - cursor.offset
  forward : ∀ earlier later, operations = earlier ++ later →
    ((ofBytes bytes order).run earlier).offset ≤ cursor.offset
  /-- Only reads have followed a limit: it was as large as what they took and what is left. -/
  accounted : ∀ earlier words later, operations = earlier ++ .setLimit words :: later →
    (∀ operation ∈ later, operation.isRead = true) →
    ∃ taken left,
      cursor.offset = ((ofBytes bytes order).run earlier).offset + 4 * taken ∧
      cursor.limit = some left ∧ words = taken + left
  unmoved : ∀ (read : Read) (fault : Fault), read.isAtomic = true →
    (read.perform cursor).1 = .error fault → (read.perform cursor).2 = cursor
  granted : ∀ words,
    (∃ values, (cursor.nextWords words).1 = .ok values) ↔ words ≤ cursor.limitRemaining
  /-- Counters of 64 bits would not wrap around, here or within the next read. -/
  faithful : bytes.length < 2 ^ 64 → (∀ operation ∈ operations, operation.Fits) →
    ∀ words ≤ cursor.limitRemaining, (cursor.advance words).Faithful bytes.length

/-- Whatever operations there were, in whatever order and however many of them failed. -/
theorem run_kept (bytes : Bytes) (order : ByteOrder) (operations : List Operation) :
    Kept bytes order operations ((ofBytes bytes order).run operations) := by
  have placed := (Placed.ofBytes bytes order).run operations
  constructor
  case placed => exact placed
  case bytesLeft => exact placed.bytesLeft
  case forward =>
    rintro earlier later rfl
    rw [run_append]
    exact offset_le_run _ later
  case accounted =>
    rintro earlier words later rfl reads
    rw [run_append]
    exact run_setLimit _ words reads
  case unmoved =>
    intro read fault atomic failed
    exact unmoved_of_atomic atomic failed
  case granted => exact nextWords_isOk_iff _
  case faithful =>
    intro small fit words within
    apply (placed.advance within).faithful small
    exact Reaches.limit_lt ⟨words, within, rfl⟩ (run_limit_lt rfl fit)

/-- Four words without a zero byte and two bytes more. -/
def unended : Bytes :=
  List.replicate 18 97

/-- A limit is cleared and another one set, and two reads fail, of which the string takes the two
words that are left. -/
def brokenOff : List Operation :=
  [.setLimit 1, .read .word, .clearLimit, .setLimit 3, .read .peek, .read (.words 4), .read .word,
    .read .string]

theorem run_kept_brokenOff :
    ((ofBytes unended .big).run brokenOff).limit = some 0 ∧
    (∃ taken left, ((ofBytes unended .big).run brokenOff).offset = 4 + 4 * taken ∧
      ((ofBytes unended .big).run brokenOff).limit = some left ∧ 3 = taken + left) ∧
    (Read.word.perform ((ofBytes unended .big).run brokenOff)).2 =
      (ofBytes unended .big).run brokenOff ∧
    ((ofBytes unended .big).run brokenOff).Faithful 18 := by
  have kept := run_kept unended .big brokenOff
  have unmoved := kept.unmoved .word (.limitReached 16) rfl rfl
  have faithful := kept.faithful (by decide) (by simp [brokenOff, Operation.Fits]) 0 (Nat.zero_le _)
  rw [advance_zero] at faithful
  refine ⟨rfl, ?_, unmoved, faithful⟩
  exact kept.accounted [.setLimit 1, .read .word, .clearLimit] 3
    [.read .peek, .read (.words 4), .read .word, .read .string] rfl (by decide)

end Cursor

end SpirvInspector
