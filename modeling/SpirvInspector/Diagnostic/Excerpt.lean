import SpirvInspector.Diagnostic.Location
import SpirvInspector.Text.Color

/-!
# Excerpts

A location is shown as a line of hexadecimal words around it, with two words of context on either
side and the words at the location highlighted. At the end of an input that is no multiple of four
bytes long, the bytes of the ragged tail stand one by one.
-/

set_option autoImplicit false

namespace SpirvInspector

/-- Up to four bytes of an input, from a position on. -/
structure Chunk where
  position : Nat
  bytes : Bytes
deriving DecidableEq, Repr

namespace Chunk

/-- A whole word is written as the number it is, a part of one byte by byte. -/
def render (chunk : Chunk) : Bytes :=
  match chunk.bytes with
  | [a, b, c, d] => Text.hex 8 (Word.ofStream .little a b c d).toNat
  | bytes => bytes.flatMap fun b => Text.hex 2 b.toNat

/-- Whether a chunk overlaps the bytes that a location marks. -/
def marked (chunk : Chunk) (location : Location) : Bool :=
  location.offset.toNat < chunk.position + 4 &&
    chunk.position < location.offset.toNat + location.extent.toNat

/-- The chunks of `rest` that start before `stop`, behind those read `earlier`, in reverse. -/
def collect (stop : Nat) (position : Nat) (earlier : List Chunk) : Bytes → List Chunk
  | [] => earlier.reverse
  | a :: b :: c :: d :: rest =>
    if position < stop then
      collect stop (position + 4) (⟨position, [a, b, c, d]⟩ :: earlier) rest
    else earlier.reverse
  | rest => if position < stop then (⟨position, rest⟩ :: earlier).reverse else earlier.reverse

end Chunk

namespace Location

/-- The position of the first chunk that is shown: two words ahead of the location. -/
def excerptStart (location : Location) : Nat :=
  location.offset.toNat / 4 * 4 - 8

/-- Chunks start before this position: eight bytes behind what is marked, or the input's end. -/
def excerptStop (location : Location) (size : Nat) : Nat :=
  min size (location.offset.toNat + location.extent.toNat + 8)

def excerpt (location : Location) (input : Bytes) : List Chunk :=
  Chunk.collect (location.excerptStop input.length) location.excerptStart []
    (input.drop location.excerptStart)

end Location

/-- The colors of a message: of what is highlighted, and of the text around it, if it has one. -/
structure Palette where
  highlight : Text.Color
  text : Option Text.Color

namespace Palette

/-- The color that text goes on in behind a highlight. -/
def resume (palette : Palette) : Text.Color :=
  palette.text.getD .reset

def chunk (palette : Palette) (terminal : Bool) (location : Location) (chunk : Chunk) : Bytes :=
  if chunk.marked location then
    ascii " " ++ palette.highlight.select terminal ++ chunk.render ++
      palette.resume.select terminal
  else ascii " " ++ chunk.render

/-- The dump line of a location. -/
def dump (palette : Palette) (terminal : Bool) (location : Location) (input : Bytes) : Bytes :=
  ascii "  " ++ Text.hex 5 location.excerptStart ++ ascii ":" ++
    (location.excerpt input).flatMap (palette.chunk terminal location) ++ ascii "\n"

/-- A message with its path and its location in front, and the dump line of a location that lies in
the input. -/
def message (palette : Palette) (terminal : Bool) (location : Location) (path input text : Bytes) :
    Bytes :=
  (match palette.text with
    | some color => color.select terminal
    | none => []) ++
  (if path.isEmpty then [] else path ++ ascii ": ") ++
  (if location.hasContext then location.render ++ ascii ": " else []) ++
  text ++ ascii "\n" ++
  (if location.hasContext && input.hasAtLeast (location.offset.toNat + 1) then
    palette.dump terminal location input
  else []) ++
  Text.Color.reset.select terminal

end Palette

end SpirvInspector
