import SpirvInspector.Stream.Endian
import SpirvInspector.Stream.Fault

/-!
# Word cursor

A forward-only reader of words. A cursor holds the bytes that are still ahead of it, so nothing it
does can look back. A limit, when one is set, bounds how many more words may be read; it is checked
before the end of the bytes is. A read that fails leaves the cursor where it was, except that an
unterminated string has consumed the words it went through.
-/

set_option autoImplicit false

namespace SpirvInspector

structure Cursor where
  rest : Bytes
  offset : Nat
  limit : Option Nat
  order : ByteOrder
deriving DecidableEq, Repr

/-- The result of a read, and the cursor after it, failed or not. -/
abbrev Reading (α : Type) := Except Fault α × Cursor

namespace Cursor

def ofBytes (bytes : Bytes) (order : ByteOrder) : Cursor :=
  ⟨bytes, 0, none, order⟩

def bytesLeft (cursor : Cursor) : Nat :=
  cursor.rest.length

def atEnd (cursor : Cursor) : Bool :=
  cursor.rest.isEmpty

def wordOffset (cursor : Cursor) : Nat :=
  cursor.offset / 4

def setLimit (cursor : Cursor) (words : Nat) : Cursor :=
  { cursor with limit := some words }

def clearLimit (cursor : Cursor) : Cursor :=
  { cursor with limit := none }

def limitReached (cursor : Cursor) : Bool :=
  cursor.limit == some 0

/-- The words that can be read before the limit or the bytes run out. -/
def limitRemaining (cursor : Cursor) : Nat :=
  match cursor.limit with
  | some words => (cursor.rest.take (4 * words)).length / 4
  | none => cursor.rest.length / 4

theorem limitRemaining_eq (cursor : Cursor) :
    cursor.limitRemaining =
      match cursor.limit with
      | some words => min words (cursor.bytesLeft / 4)
      | none => cursor.bytesLeft / 4 := by
  rw [limitRemaining, bytesLeft]
  split
  · rw [List.length_take]
    omega
  · rfl

/-- Why `words` more words cannot be read, if they cannot. -/
def refusal (cursor : Cursor) (words : Nat) : Option Fault :=
  if cursor.limit.any (· < words) then some (.limitReached cursor.offset)
  else if cursor.rest.hasAtLeast (4 * words) then none
  else some (.streamExpected cursor.offset)

/-- The cursor behind the next `words` words. -/
def advance (cursor : Cursor) (words : Nat) : Cursor :=
  { cursor with
    rest := cursor.rest.drop (4 * words)
    offset := cursor.offset + 4 * words
    limit := cursor.limit.map (· - words) }

/-- All of the next `words` words, or none of them. -/
def nextWords (cursor : Cursor) (words : Nat) : Reading (List Word) :=
  match cursor.refusal words with
  | some fault => (.error fault, cursor)
  | none =>
    (.ok (Word.ofBytes cursor.order (cursor.rest.take (4 * words))), cursor.advance words)

/-- The next word without moving. -/
def peekWord (cursor : Cursor) : Except Fault Word :=
  if cursor.limitReached then .error (.limitReached cursor.offset)
  else match cursor.rest with
    | a :: b :: c :: d :: _ => .ok (Word.ofStream cursor.order a b c d)
    | _ => .error (.streamExpected cursor.offset)

def nextWord (cursor : Cursor) : Reading Word :=
  match cursor.peekWord with
  | .error fault => (.error fault, cursor)
  | .ok word => (.ok word, cursor.advance 1)

/-- Scans `rest` word by word for a zero byte, with the bytes before it in reverse. -/
def scanString (order : ByteOrder) : Bytes → Nat → Option Nat → Bytes → Reading Bytes
  | rest, offset, some 0, _ => (.error (.limitReached offset), ⟨rest, offset, some 0, order⟩)
  | a :: b :: c :: d :: rest, offset, limit, before =>
    let behind : Cursor := ⟨rest, offset + 4, limit.map (· - 1), order⟩
    if a = 0 then (.ok before.reverse, behind)
    else if b = 0 then (.ok (a :: before).reverse, behind)
    else if c = 0 then (.ok (b :: a :: before).reverse, behind)
    else if d = 0 then (.ok (c :: b :: a :: before).reverse, behind)
    else scanString order rest (offset + 4) (limit.map (· - 1)) (d :: c :: b :: a :: before)
  | rest, offset, limit, _ => (.error (.streamExpected offset), ⟨rest, offset, limit, order⟩)

/-- A string that ends with a zero byte and fills up its last word. Its bytes are in stream order,
whatever the order of the words. -/
def nextString (cursor : Cursor) : Reading Bytes :=
  scanString cursor.order cursor.rest cursor.offset cursor.limit []

end Cursor

end SpirvInspector
