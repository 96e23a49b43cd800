import Mathlib.Data.List.Basic
import SpirvInspector.Diagnostic.Diagnostic
import SpirvInspector.Proofs.Stream.Words

/-!
# What a diagnostic shows of its input

An excerpt is a run of chunks, one for every fourth position. Where a location is at a word of the
input and no longer than a word, the run has one chunk that is marked, which holds this word, and
the other chunks stand in front of it or behind it.
-/

set_option autoImplicit false

namespace SpirvInspector

namespace Chunk

/-- The chunk at a position of an input. -/
def ofInput (input : Bytes) (position : Nat) : Chunk :=
  ⟨position, (input.drop position).take 4⟩

/-- So many chunks of an input, one behind the other. -/
def run (input : Bytes) (start count : Nat) : List Chunk :=
  (List.range count).map fun i => ofInput input (start + 4 * i)

variable {input : Bytes} {start position count stop : Nat}

theorem run_add (input : Bytes) (start first second : Nat) :
    run input start (first + second) =
      run input start first ++ run input (start + 4 * first) second := by
  simp [run, List.range_add, Nat.mul_add, Nat.add_assoc]

theorem run_succ (input : Bytes) (start count : Nat) :
    run input start (count + 1) = ofInput input start :: run input (start + 4) count := by
  rw [Nat.add_comm, run_add]
  rfl

theorem mem_run_iff {chunk : Chunk} :
    chunk ∈ run input start count ↔ ∃ i < count, chunk = ofInput input (start + 4 * i) := by
  simp [run, eq_comm]

/-- The chunks from a position on, of which the last one may be shorter than a word. -/
theorem collect_eq (bounded : stop ≤ input.length) (position : Nat) (earlier : List Chunk) :
    collect stop position earlier (input.drop position) =
      earlier.reverse ++ run input position ((stop - position + 3) / 4) := by
  induction count : (stop - position + 3) / 4 generalizing position earlier with
  | zero =>
    have past : ¬position < stop := by omega
    have empty : earlier.reverse ++ run input position 0 = earlier.reverse := List.append_nil _
    rw [empty]
    unfold collect
    split <;> simp [past]
  | succ later inductionHypothesis =>
    have before : position < stop := by omega
    have length : (input.drop position).length = input.length - position := List.length_drop
    rw [run_succ]
    unfold collect
    split
    · next none =>
      rw [none, List.length_nil] at length
      omega
    · next a b c d rest isWord =>
      have behind : input.drop (position + 4) = rest := by
        rw [← List.drop_drop, isWord]
        rfl
      have here : ofInput input position = ⟨position, [a, b, c, d]⟩ := by
        rw [ofInput, isWord]
        rfl
      rw [if_pos before, ← behind, inductionHypothesis _ _ (by omega), here]
      simp
    · next rest notEmpty notWord =>
      have short : input.length - position < 4 := by
        rw [← length]
        apply Nat.lt_of_not_le
        intro long
        obtain ⟨a, b, c, d, behind, isWord⟩ := Bytes.exists_word long
        exact notWord a b c d behind isWord
      obtain rfl : later = 0 := by omega
      have here : ofInput input position = ⟨position, input.drop position⟩ := by
        rw [ofInput, List.take_of_length_le (by omega)]
      rw [if_pos before, here]
      simp [run]

end Chunk

namespace Location

variable {location : Location} {input : Bytes}

/-- An excerpt is a run of chunks up to the position where it stops. -/
theorem excerpt_eq (location : Location) (input : Bytes) :
    location.excerpt input =
      Chunk.run input location.excerptStart
        ((location.excerptStop input.length - location.excerptStart + 3) / 4) := by
  have bounded : location.excerptStop input.length ≤ input.length := Nat.min_le_left _ _
  rw [excerpt, Chunk.collect_eq bounded, List.reverse_nil, List.nil_append]

/-- A location at a word of an input, or at what is left of one at the end. -/
structure MarksWord (location : Location) (input : Bytes) : Prop where
  aligned : 4 ∣ location.offset.toNat
  positive : 0 < location.extent.toNat
  short : location.extent.toNat ≤ 4
  inside : location.offset.toNat < input.length

namespace MarksWord

/-- The chunk at the location is the one that is marked. -/
theorem marked_iff (marks : location.MarksWord input) {chunk : Chunk}
    (aligned : 4 ∣ chunk.position) :
    chunk.marked location = true ↔ chunk.position = location.offset.toNat := by
  obtain ⟨isAligned, positive, short, -⟩ := marks
  simp only [Chunk.marked, Bool.and_eq_true, decide_eq_true_eq]
  omega

theorem excerptStart_add (marks : location.MarksWord input) :
    location.excerptStart + 4 * min 2 (location.offset.toNat / 4) = location.offset.toNat := by
  have aligned := marks.aligned
  unfold excerptStart
  omega

end MarksWord

end Location

namespace Palette

variable {palette : Palette} {terminal : Bool} {location : Location} {input : Bytes}

/-- A chunk without a highlight. -/
def plain (chunk : Chunk) : Bytes :=
  ascii " " ++ chunk.render

/-- A dump line in which one chunk is highlighted. -/
def line (palette : Palette) (terminal : Bool) (start : Nat) (ahead : List Chunk) (failing : Chunk)
    (behind : List Chunk) : Bytes :=
  ascii "  " ++ Text.hex 5 start ++ ascii ":" ++ ahead.flatMap plain ++
    (ascii " " ++ palette.highlight.select terminal ++ failing.render ++
      palette.resume.select terminal) ++
    behind.flatMap plain ++ ascii "\n"

theorem flatMap_chunk_of_unmarked {chunks : List Chunk}
    (unmarked : ∀ chunk ∈ chunks, chunk.marked location = false) :
    chunks.flatMap (palette.chunk terminal location) = chunks.flatMap plain := by
  apply List.flatMap_congr
  intro chunk isChunk
  simp [Palette.chunk, plain, unmarked chunk isChunk]

end Palette

namespace Location.MarksWord

variable {location : Location} {input : Bytes}

end Location.MarksWord

namespace Diagnostic

end Diagnostic

end SpirvInspector
