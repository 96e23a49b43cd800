import SpirvInspector.Load.Loader
import SpirvInspector.Proofs.Parse.RaggedTail
import SpirvInspector.Proofs.Stream.Splits

/-!
# Loading words

Words that are written to a stream are read back from it, whichever way the reading is divided. So
words may be loaded for the bytes that they were read from. Fewer than four bytes behind the last
word make no difference.
-/

set_option autoImplicit false

namespace SpirvInspector

theorem Module.load_ragged {bytes tail : Bytes} (aligned : 4 ∣ bytes.length)
    (ragged : tail.length < 4) (m : Module) (limit : Nat) (verbosity : Int) :
    m.load limit verbosity (bytes ++ tail) = m.load limit verbosity bytes := by
  obtain ⟨events, ending, offers⟩ := exists_offers bytes
  have same : parseVerbosely Loader.sink (Loader.ofModule m limit) verbosity (bytes ++ tail) =
      parseVerbosely Loader.sink (Loader.ofModule m limit) verbosity bytes := by
    rw [parseVerbosely, parseVerbosely, parse_of_offers _ _ offers,
      parse_of_offers _ _ (offers.raggedTail aligned ragged)]
  rw [load, load, same]

namespace Cursor

variable {requests : List Request} {words : List Word}

theorem takeAll_serialize (order : ByteOrder) (all : Request.total requests = words.length) :
    ∃ behind, takeAll requests (.ofBytes (Word.serialize words) order) =
        (.ok (Word.ofBytes order (Word.serialize words)), behind) ∧
      behind.atEnd = true := by
  have length := Word.length_serialize words
  have available : Request.total requests ≤
      (Cursor.ofBytes (Word.serialize words) order).limitRemaining := by
    rw [limitRemaining_of_none rfl, all, ofBytes, length]
    omega
  have taken : (Word.serialize words).take (4 * words.length) = Word.serialize words :=
    List.take_of_length_le (Nat.le_of_eq length)
  have left : (Word.serialize words).drop (4 * words.length) = [] :=
    List.drop_eq_nil_of_le (Nat.le_of_eq length)
  rw [takeAll_of_le available, all]
  refine ⟨advance (.ofBytes (Word.serialize words) order) words.length, ?_, ?_⟩
  · rw [ofBytes, taken]
  · rw [atEnd, rest_advance, ofBytes, left, List.isEmpty_nil]

/-- Bytes that words were read from, all there are, are these words and a ragged tail. -/
theorem exists_tail {bytes : Bytes} {behind : Cursor}
    (read : takeAll requests (.ofBytes bytes .little) = (.ok words, behind))
    (last : behind.limitRemaining = 0) :
    ∃ tail : Bytes, tail.length < 4 ∧ bytes = Word.serialize words ++ tail := by
  have available := total_le_of_takeAll read
  rw [takeAll_of_le available] at read
  cases read
  rw [limitRemaining_advance] at last
  rw [limitRemaining_of_none rfl] at available last
  dsimp only [ofBytes] at available last ⊢
  have whole : (bytes.take (4 * Request.total requests)).length = 4 * Request.total requests :=
    List.length_take_of_le (by omega)
  refine ⟨bytes.drop (4 * Request.total requests), ?_, ?_⟩
  · rw [List.length_drop]
    omega
  · rw [Word.serialize_ofBytes whole, List.take_append_drop]

end Cursor

/-- Words and their bytes fit together, in a word and in a stream. -/
theorem serialize_readBack (words : List Word) :
    (∀ word : Word, word.cut = word.bytes ∧ word.swapped.swapped = word) ∧
    (∀ (order : ByteOrder) (a b c d : UInt8),
      Word.assemble order a b c d = Word.ofStream order a b c d) ∧
    (∀ width n : Nat, n < 2 ^ (8 * width) →
      Endian.swap width n < 2 ^ (8 * width) ∧
      Endian.toBytes width (Endian.swap width n) = (Endian.toBytes width n).reverse ∧
      Endian.swap width (Endian.swap width n) = n) ∧
    (∀ requests : List Cursor.Request, Cursor.Request.total requests = words.length →
      (∃ behind, Cursor.takeAll requests (.ofBytes (Word.serialize words) .little) =
          (.ok words, behind) ∧ behind.atEnd = true) ∧
      (∃ behind, Cursor.takeAll requests (.ofBytes (Word.serialize words) .big) =
          (.ok (words.map Word.swapped), behind) ∧ behind.atEnd = true)) ∧
    ∀ (bytes : Bytes) (requests : List Cursor.Request) (behind : Cursor),
      Cursor.takeAll requests (.ofBytes bytes .little) = (.ok words, behind) →
      behind.limitRemaining = 0 →
      ∀ (m : Module) (limit : Nat) (verbosity : Int),
        m.loadWords limit verbosity words = m.load limit verbosity bytes := by
  refine ⟨?_, ?_, ?_, ?_, ?_⟩
  · intro word
    exact ⟨word.cut_eq, word.swapped_swapped⟩
  · exact Word.assemble_eq
  · intro width n bound
    rw [Nat.pow_mul] at bound ⊢
    refine ⟨Endian.swap_lt width n, Endian.toBytes_swap width n, ?_⟩
    rw [Endian.swap_swap, Nat.mod_eq_of_lt bound]
  · intro requests all
    have little := Cursor.takeAll_serialize .little all
    have big := Cursor.takeAll_serialize .big all
    rw [Word.ofBytes_serialize] at little
    rw [Word.ofBytes_big, Word.ofBytes_serialize] at big
    exact ⟨little, big⟩
  · intro bytes requests behind read last m limit verbosity
    obtain ⟨tail, ragged, rfl⟩ := Cursor.exists_tail read last
    have aligned : 4 ∣ (Word.serialize words).length := ⟨_, Word.length_serialize words⟩
    rw [Module.load_ragged aligned ragged, Module.loadWords]

theorem serialize_readBack_oneCapability :
    ∃ words behind,
      Cursor.takeAll [.word, .words 3, .words 0, .word, .words 2]
        (.ofBytes (oneCapability ++ [1, 0, 0]) .little) = (.ok words, behind) ∧
      behind.limitRemaining = 0 ∧ Cursor.Request.total [.words 5, .word, .word] = words.length ∧
      (∃ last, Cursor.takeAll [.words 5, .word, .word] (.ofBytes (Word.serialize words) .big) =
          (.ok (words.map Word.swapped), last) ∧ last.atEnd = true) ∧
      0x1234 < 2 ^ (8 * 2) ∧ Endian.swap 2 (Endian.swap 2 0x1234) = 0x1234 ∧
      Module.loadWords {} 0 2 words = Module.load {} 0 2 (oneCapability ++ [1, 0, 0]) := by
  obtain ⟨-, -, swaps, splits, loads⟩ :=
    serialize_readBack [Header.magicNumber, 0x10400, 0, 1, 0, 0x20011, 1]
  have read : Cursor.takeAll [.word, .words 3, .words 0, .word, .words 2]
      (.ofBytes (oneCapability ++ [1, 0, 0]) .little) =
        (.ok [Header.magicNumber, 0x10400, 0, 1, 0, 0x20011, 1],
          ⟨[1, 0, 0], 28, none, .little⟩) := by
    decide +kernel
  have bound : 0x1234 < 2 ^ (8 * 2) := by decide
  exact ⟨_, _, read, by decide, rfl, (splits [.words 5, .word, .word] rfl).2, bound,
    (swaps 2 0x1234 bound).2.2, loads _ _ _ read (by decide) {} 0 2⟩

end SpirvInspector
