import SpirvInspector.Proofs.Diagnostic.Excerpt
import SpirvInspector.Proofs.Text.Numerals

/-!
# The dump below a message is exact

Wherever a location starts in the input and however far it reaches, the dump line shows each word
from two words ahead of it up to eight bytes behind it, as far as the input goes. The tokens can be
read back, and those that overlap the location are the highlighted ones: they stand together, they
cover all of its bytes that exist, and there is one at least.
-/

set_option autoImplicit false

namespace SpirvInspector

namespace Chunk

/-- The bytes that digits stand for, two for each byte. -/
def readPairs : Bytes → Bytes
  | high :: low :: rest => (Text.valueOf 16 [high, low]).toUInt8 :: readPairs rest
  | _ => []

/-- The bytes that a token stands for: with eight digits it is a word. -/
def readToken (token : Bytes) : Bytes :=
  if token.length = 8 then Endian.toBytes 4 (Text.valueOf 16 token) else readPairs token

/-- Whether a chunk has bytes in common with what a location marks. -/
def Overlaps (chunk : Chunk) (location : Location) : Prop :=
  location.offset.toNat < chunk.position + chunk.bytes.length ∧
    chunk.position < location.offset.toNat + location.extent.toNat

/-- What a chunk of an input shows. -/
structure Exact (input : Bytes) (chunk : Chunk) : Prop where
  inside : chunk.position < input.length
  /-- Nothing but bytes of the input, as many as there are of the four. -/
  bytes : chunk.bytes = (input.drop chunk.position).take 4
  digits : ∀ b ∈ chunk.render, Text.isHexDigit b = true
  /-- A word is the number whose least significant byte comes first. -/
  word : chunk.position + 4 ≤ input.length →
    chunk.render.length = 8 ∧ Text.valueOf 16 chunk.render = Endian.ofBytes chunk.bytes
  /-- The last bytes of an input have two digits each. -/
  tail : input.length < chunk.position + 4 →
    chunk.render.length = 2 * (input.length - chunk.position)
  readBack : readToken chunk.render = chunk.bytes

section Render

variable {chunk : Chunk}

theorem length_hex_byte (b : UInt8) : (Text.hex 2 b.toNat).length = 2 :=
  Text.length_hex (by decide) b.toNat_lt

theorem readPairs_flatMap (bytes : Bytes) :
    readPairs (bytes.flatMap fun b => Text.hex 2 b.toNat) = bytes := by
  induction bytes with
  | nil => rfl
  | cons b rest inductionHypothesis =>
    obtain ⟨high, low, digits⟩ := List.length_eq_two.mp (length_hex_byte b)
    have value : Text.valueOf 16 [high, low] = b.toNat := by
      rw [← digits, Text.valueOf_hex]
    have byte : b.toNat.toUInt8 = b := by simp
    rw [List.flatMap_cons, digits, List.cons_append, List.cons_append, List.nil_append, readPairs,
      value, byte, inductionHypothesis]

theorem length_flatMap_hex (bytes : Bytes) :
    (bytes.flatMap fun b => Text.hex 2 b.toNat).length = 2 * bytes.length := by
  rw [List.length_flatMap, List.map_congr_left fun b _ => length_hex_byte b]
  simp [Nat.mul_comm]

theorem render_of_short (short : chunk.bytes.length < 4) :
    chunk.render = chunk.bytes.flatMap fun b => Text.hex 2 b.toNat := by
  unfold render
  split
  · next isWord => simp [isWord] at short
  · rfl

/-- The digits of a whole word, as they are written and as they are read. -/
theorem render_of_word (isWord : chunk.bytes.length = 4) :
    chunk.render = Text.hex 8 (Endian.ofBytes chunk.bytes) ∧ chunk.render.length = 8 := by
  have bound : Endian.ofBytes chunk.bytes < 256 ^ 4 := isWord ▸ Endian.ofBytes_lt chunk.bytes
  obtain ⟨a, b, c, d, bytes⟩ := List.length_eq_four.mp isWord
  have stands : (Word.ofStream .little a b c d).toNat = Endian.ofBytes chunk.bytes := by
    rw [bytes] at bound ⊢
    exact UInt32.toNat_ofNat_of_lt' bound
  have shown : chunk.render = Text.hex 8 (Endian.ofBytes chunk.bytes) := by
    rw [← stands, render, bytes]
  exact ⟨shown, shown ▸ Text.length_hex (by decide) bound⟩

theorem isHexDigit_of_mem_render {b : UInt8} (isIn : b ∈ chunk.render) :
    Text.isHexDigit b = true := by
  unfold render at isIn
  split at isIn
  · exact Text.isHexDigit_of_mem_hex isIn
  · obtain ⟨byte, -, isDigit⟩ := List.mem_flatMap.mp isIn
    exact Text.isHexDigit_of_mem_hex isDigit

theorem readToken_render (short : chunk.bytes.length ≤ 4) :
    readToken chunk.render = chunk.bytes := by
  rcases Nat.lt_or_eq_of_le short with ragged | isWord
  · have shown := render_of_short ragged
    have length := length_flatMap_hex chunk.bytes
    rw [readToken, shown, if_neg (by omega), readPairs_flatMap]
  · obtain ⟨shown, length⟩ := render_of_word isWord
    rw [readToken, if_pos length, shown, Text.valueOf_hex, ← isWord, Endian.toBytes_ofBytes]

end Render

section Run

variable {input : Bytes} {start position count : Nat}

theorem length_run (input : Bytes) (start count : Nat) :
    (run input start count).length = count := by
  simp [run]

theorem length_bytes_ofInput (input : Bytes) (position : Nat) :
    (ofInput input position).bytes.length = min 4 (input.length - position) := by
  rw [ofInput, List.length_take, List.length_drop]

theorem exact_ofInput (inside : position < input.length) :
    Exact input (ofInput input position) := by
  have length := length_bytes_ofInput input position
  have here : (ofInput input position).position = position := rfl
  constructor
  case inside => exact inside
  case bytes => rfl
  case digits =>
    intro b isIn
    exact isHexDigit_of_mem_render isIn
  case word =>
    intro long
    have isWord : (ofInput input position).bytes.length = 4 := by omega
    obtain ⟨shown, eight⟩ := render_of_word isWord
    refine ⟨eight, ?_⟩
    rw [shown, Text.valueOf_hex]
  case tail =>
    intro ragged
    rw [render_of_short (by omega), length_flatMap_hex, length, here]
    omega
  case readBack => exact readToken_render (by omega)

theorem pairwise_run (input : Bytes) (start count : Nat) :
    (run input start count).Pairwise fun first second => first.position < second.position := by
  refine List.pairwise_map.mpr (List.pairwise_lt_range.imp ?_)
  intro i j before
  change start + 4 * i < start + 4 * j
  omega

/-- The test for a highlight takes every chunk for a whole word, which makes no difference for a
location that starts in the input. -/
theorem marked_ofInput_iff {location : Location} (inside : location.offset.toNat < input.length) :
    (ofInput input position).marked location = true ↔
      (ofInput input position).Overlaps location := by
  have length := length_bytes_ofInput input position
  have here : (ofInput input position).position = position := rfl
  rw [marked, Bool.and_eq_true, decide_eq_true_eq, decide_eq_true_eq, Overlaps, length, here]
  omega

end Run

end Chunk

namespace Location

variable {location : Location} {input : Bytes}

/-- The position of the chunk in which a location starts. -/
def firstMarked (location : Location) : Nat :=
  location.offset.toNat / 4 * 4

/-- The chunks in which a location has bytes of an input of this size. -/
def markedCount (location : Location) (size : Nat) : Nat :=
  (min size (location.offset.toNat + location.extent.toNat) - location.firstMarked + 3) / 4

/-- The position behind the last of these chunks. -/
def markedStop (location : Location) (size : Nat) : Nat :=
  location.firstMarked + 4 * location.markedCount size

/-- The chunks of an excerpt around and at a location, and what is shown of the input by them. -/
structure Dumped (location : Location) (input : Bytes) (start : Nat)
    (ahead marked behind : List Chunk) : Prop where
  aligned : 4 ∣ start
  exact : ∀ chunk ∈ ahead ++ marked ++ behind, chunk.Exact input
  ordered : (ahead ++ marked ++ behind).Pairwise fun first second =>
    first.position < second.position
  /-- One chunk at every fourth position up to eight bytes behind the location. -/
  listed : ∀ position, (∃ chunk ∈ ahead ++ marked ++ behind, chunk.position = position) ↔
    start ≤ position ∧ 4 ∣ position ∧
      position < min input.length (location.offset.toNat + location.extent.toNat + 8)
  overlapping : ∀ chunk ∈ marked, chunk.Overlaps location
  apart : ∀ chunk ∈ ahead ++ behind, ¬chunk.Overlaps location
  marks : marked ≠ []
  /-- No byte of the location that exists is without a mark. -/
  covered : ∀ position, location.offset.toNat ≤ position →
    position < location.offset.toNat + location.extent.toNat → position < input.length →
      ∃ chunk ∈ marked, chunk.position ≤ position ∧ position < chunk.position + chunk.bytes.length
  length_ahead : ahead.length = min 2 (location.offset.toNat / 4)
  length_behind_le : behind.length ≤ 2
  length_behind : location.offset.toNat + location.extent.toNat + 8 ≤ input.length →
    behind.length = 2

/-- The chunks behind these. -/
def behindCount (location : Location) (size : Nat) : Nat :=
  (location.excerptStop size - location.markedStop size + 3) / 4

section Split

theorem excerptStart_add (location : Location) :
    location.excerptStart + 4 * min 2 (location.offset.toNat / 4) = location.firstMarked := by
  unfold excerptStart firstMarked
  omega

theorem dvd_excerptStart (location : Location) : 4 ∣ location.excerptStart := by
  unfold excerptStart
  omega

theorem mem_excerpt_iff {chunk : Chunk} :
    chunk ∈ location.excerpt input ↔ ∃ position, chunk = Chunk.ofInput input position ∧
      location.excerptStart ≤ position ∧ 4 ∣ position ∧
        position < location.excerptStop input.length := by
  rw [excerpt_eq, Chunk.mem_run_iff]
  have aligned := location.dvd_excerptStart
  constructor
  · rintro ⟨i, within, rfl⟩
    exact ⟨_, rfl, Nat.le_add_right _ _, by omega, by omega⟩
  · rintro ⟨position, rfl, behind, isAligned, before⟩
    refine ⟨(position - location.excerptStart) / 4, by omega, ?_⟩
    congr 1
    omega

theorem apart_of_mem_ahead {chunk : Chunk}
    (isIn : chunk ∈ Chunk.run input location.excerptStart (min 2 (location.offset.toNat / 4))) :
    ¬chunk.Overlaps location := by
  obtain ⟨i, within, rfl⟩ := Chunk.mem_run_iff.mp isIn
  have length := Chunk.length_bytes_ofInput input (location.excerptStart + 4 * i)
  rintro ⟨reaches, -⟩
  rw [length] at reaches
  change _ < location.excerptStart + 4 * i + _ at reaches
  unfold excerptStart at reaches
  omega

theorem apart_of_mem_behind (inside : location.offset.toNat < input.length) {chunk : Chunk}
    (isIn : chunk ∈ Chunk.run input (location.markedStop input.length)
      (location.behindCount input.length)) :
    ¬chunk.Overlaps location := by
  obtain ⟨i, within, rfl⟩ := Chunk.mem_run_iff.mp isIn
  rintro ⟨-, starts⟩
  change location.markedStop input.length + 4 * i < _ at starts
  unfold behindCount excerptStop at within
  unfold markedStop markedCount firstMarked at within starts
  omega

variable (extent : 0 < location.extent.toNat) (inside : location.offset.toNat < input.length)

include extent inside

theorem markedCount_pos : 0 < location.markedCount input.length := by
  unfold markedCount firstMarked
  omega

theorem excerpt_split :
    location.excerpt input =
      Chunk.run input location.excerptStart (min 2 (location.offset.toNat / 4)) ++
        Chunk.run input location.firstMarked (location.markedCount input.length) ++
        Chunk.run input (location.markedStop input.length)
          (location.behindCount input.length) := by
  -- Each part starts at a multiple of four, so it is the same to round up once or part by part.
  have counts : (location.excerptStop input.length - location.excerptStart + 3) / 4 =
      min 2 (location.offset.toNat / 4) + location.markedCount input.length +
        location.behindCount input.length := by
    unfold behindCount markedStop markedCount firstMarked excerptStop excerptStart
    omega
  rw [excerpt_eq, counts, Chunk.run_add, Chunk.run_add, Nat.mul_add, ← Nat.add_assoc,
    excerptStart_add]
  rfl

theorem overlaps_of_mem {chunk : Chunk}
    (isIn : chunk ∈ Chunk.run input location.firstMarked (location.markedCount input.length)) :
    chunk.Overlaps location := by
  obtain ⟨i, within, rfl⟩ := Chunk.mem_run_iff.mp isIn
  have length := Chunk.length_bytes_ofInput input (location.firstMarked + 4 * i)
  have isFirst : location.firstMarked = location.offset.toNat / 4 * 4 := rfl
  unfold markedCount at within
  constructor
  · rw [length]
    change _ < location.firstMarked + 4 * i + _
    omega
  · change location.firstMarked + 4 * i < _
    omega

omit extent inside in
/-- A byte of the location is in the chunk at the multiple of four at or in front of it. -/
theorem exists_covering {position : Nat} (behind : location.offset.toNat ≤ position)
    (before : position < location.offset.toNat + location.extent.toNat)
    (present : position < input.length) :
    ∃ chunk ∈ Chunk.run input location.firstMarked (location.markedCount input.length),
      chunk.position ≤ position ∧ position < chunk.position + chunk.bytes.length := by
  have isFirst : location.firstMarked = location.offset.toNat / 4 * 4 := rfl
  refine ⟨Chunk.ofInput input (location.firstMarked + 4 * ((position - location.firstMarked) / 4)),
    Chunk.mem_run_iff.mpr ⟨_, ?_, rfl⟩, ?_, ?_⟩
  · unfold markedCount
    omega
  · change location.firstMarked + 4 * ((position - location.firstMarked) / 4) ≤ position
    omega
  · rw [Chunk.length_bytes_ofInput]
    change _ < location.firstMarked + 4 * ((position - location.firstMarked) / 4) + _
    omega

/-- The excerpt falls into what is ahead of the location, at it and behind it. -/
theorem dumped :
    location.Dumped input location.excerptStart
      (Chunk.run input location.excerptStart (min 2 (location.offset.toNat / 4)))
      (Chunk.run input location.firstMarked (location.markedCount input.length))
      (Chunk.run input (location.markedStop input.length)
        (location.behindCount input.length)) := by
  have split := excerpt_split extent inside
  have within : location.excerptStop input.length ≤ input.length := Nat.min_le_left _ _
  constructor
  case aligned => exact location.dvd_excerptStart
  case exact =>
    rw [← split]
    intro chunk isIn
    obtain ⟨position, rfl, -, -, before⟩ := mem_excerpt_iff.mp isIn
    apply Chunk.exact_ofInput
    omega
  case ordered =>
    rw [← split, excerpt_eq]
    exact Chunk.pairwise_run _ _ _
  case listed =>
    rw [← split]
    intro position
    constructor
    · rintro ⟨chunk, isIn, rfl⟩
      obtain ⟨position, rfl, isShown⟩ := mem_excerpt_iff.mp isIn
      exact isShown
    · intro isShown
      exact ⟨_, mem_excerpt_iff.mpr ⟨position, rfl, isShown⟩, rfl⟩
  case overlapping =>
    intro chunk isIn
    exact overlaps_of_mem extent inside isIn
  case apart =>
    intro chunk isIn
    rcases List.mem_append.mp isIn with isAhead | isBehind
    · exact apart_of_mem_ahead isAhead
    · exact apart_of_mem_behind inside isBehind
  case marks =>
    apply List.ne_nil_of_length_pos
    rw [Chunk.length_run]
    exact markedCount_pos extent inside
  case covered =>
    intro position behind before present
    exact exists_covering behind before present
  case length_ahead => exact Chunk.length_run _ _ _
  case length_behind_le =>
    rw [Chunk.length_run]
    unfold behindCount markedStop markedCount firstMarked excerptStop
    omega
  case length_behind =>
    intro long
    rw [Chunk.length_run]
    unfold behindCount markedStop markedCount firstMarked excerptStop
    omega

end Split

end Location

namespace Palette

variable {palette : Palette} {terminal : Bool} {location : Location} {input : Bytes}

/-- A chunk with a highlight. -/
def highlighted (palette : Palette) (terminal : Bool) (chunk : Chunk) : Bytes :=
  ascii " " ++ palette.highlight.select terminal ++ chunk.render ++ palette.resume.select terminal

/-- A dump line with a position in front, in which chunks that follow each other are highlighted. -/
def dumpLine (palette : Palette) (terminal : Bool) (start : Nat)
    (ahead marked behind : List Chunk) : Bytes :=
  ascii "  " ++ Text.hex 5 start ++ ascii ":" ++ ahead.flatMap plain ++
    marked.flatMap (palette.highlighted terminal) ++ behind.flatMap plain ++ ascii "\n"

/-- The line of a message that stands above the dump line. -/
def headline (palette : Palette) (terminal : Bool) (location : Location) (path text : Bytes) :
    Bytes :=
  palette.text.elim [] (·.select terminal) ++ (if path.isEmpty then [] else path ++ ascii ": ") ++
    location.render ++ ascii ": " ++ text ++ ascii "\n"

theorem flatMap_chunk_of_marked {chunks : List Chunk}
    (marked : ∀ chunk ∈ chunks, chunk.marked location = true) :
    chunks.flatMap (palette.chunk terminal location) =
      chunks.flatMap (palette.highlighted terminal) := by
  apply List.flatMap_congr
  intro chunk isChunk
  rw [Palette.chunk, if_pos (marked chunk isChunk)]
  rfl

/-- A dump line has the highlights where the chunks overlap the location. -/
theorem dump_eq {ahead marked behind : List Chunk}
    (excerpt : location.excerpt input = ahead ++ marked ++ behind)
    (inside : location.offset.toNat < input.length)
    (overlapping : ∀ chunk ∈ marked, chunk.Overlaps location)
    (apart : ∀ chunk ∈ ahead ++ behind, ¬chunk.Overlaps location) :
    palette.dump terminal location input =
      palette.dumpLine terminal location.excerptStart ahead marked behind := by
  have marked_iff : ∀ chunk ∈ ahead ++ marked ++ behind,
      chunk.marked location = true ↔ chunk.Overlaps location := by
    intro chunk isIn
    obtain ⟨position, rfl, -⟩ := Location.mem_excerpt_iff.mp (excerpt ▸ isIn)
    exact Chunk.marked_ofInput_iff inside
  have hot : ∀ chunk ∈ marked, chunk.marked location = true := by
    intro chunk isIn
    exact (marked_iff chunk (by simp [isIn])).mpr (overlapping chunk isIn)
  have cold : ∀ chunk ∈ ahead ++ behind, chunk.marked location = false := by
    intro chunk isIn
    apply Bool.eq_false_iff.mpr
    intro isMarked
    have isShown : chunk ∈ ahead ++ marked ++ behind := by
      rcases List.mem_append.mp isIn with isAhead | isBehind
      · simp [isAhead]
      · simp [isBehind]
    exact apart chunk isIn ((marked_iff chunk isShown).mp isMarked)
  obtain ⟨front, back⟩ := List.forall_mem_append.mp cold
  rw [dump, excerpt, List.flatMap_append, List.flatMap_append, flatMap_chunk_of_unmarked front,
    flatMap_chunk_of_marked hot, flatMap_chunk_of_unmarked back]
  simp only [dumpLine, List.append_assoc]

/-- A message whose location starts in the input has a dump line below its headline: it begins with
the position of its first chunk, a multiple of four, and the chunks that overlap the location are
the highlighted ones. -/
theorem message_dump (extent : 0 < location.extent)
    (inside : location.offset.toNat < input.length) :
    ∃ start ahead marked behind, location.Dumped input start ahead marked behind ∧
      Text.valueOf 16 (Text.hex 5 start) = start ∧
      ∀ (palette : Palette) terminal path text,
        palette.message terminal location path input text =
          palette.headline terminal location path text ++
            palette.dumpLine terminal start ahead marked behind ++
            Text.Color.reset.select terminal := by
  have positive : 0 < location.extent.toNat := UInt32.lt_iff_toNat_lt.mp extent
  have isDumped := Location.dumped positive inside
  refine ⟨_, _, _, _, isDumped, Text.valueOf_hex _ _, ?_⟩
  intro palette terminal path text
  have context : location.hasContext = true := decide_eq_true extent
  have reaches : input.hasAtLeast (location.offset.toNat + 1) = true :=
    (Bytes.hasAtLeast_iff _ _).mpr inside
  have line : palette.dump terminal location input = _ :=
    dump_eq (Location.excerpt_split positive inside) inside isDumped.overlapping isDumped.apart
  rw [message, line, headline, context, reaches]
  cases palette.text <;> simp

/-- A location that starts inside a word and ends with the bytes that are left of the last one. -/
theorem message_dump_acrossEnd :
    (0 : UInt32) < 6 ∧ (13 : UInt32).toNat < (List.replicate 19 (7 : UInt8)).length ∧
      ∃ start ahead marked behind,
        Location.Dumped ⟨13, 2, 6⟩ (List.replicate 19 7) start ahead marked behind ∧
        Text.valueOf 16 (Text.hex 5 start) = start ∧
        ∀ (palette : Palette) terminal path text,
          palette.message terminal ⟨13, 2, 6⟩ path (List.replicate 19 7) text =
            palette.headline terminal ⟨13, 2, 6⟩ path text ++
              palette.dumpLine terminal start ahead marked behind ++
              Text.Color.reset.select terminal :=
  ⟨by decide, by decide, message_dump (by decide) (by decide)⟩

end Palette

end SpirvInspector
