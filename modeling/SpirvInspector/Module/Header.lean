import SpirvInspector.Stream.Endian
import SpirvInspector.Text.Digits

/-!
# Module header

The five words that open every module, and the version of the grammar that this library knows.
-/

set_option autoImplicit false

namespace SpirvInspector

structure Header where
  magic : Word
  /-- Two bytes of it are used: major version, then minor version, then a zero byte. -/
  version : Word
  /-- The number of the generating tool in the upper half, its version in the lower. -/
  generator : Word
  /-- Every id of the module is below this. -/
  bound : Word
  reserved : Word
deriving DecidableEq, Repr

namespace Header

def magicNumber : Word := 0x07230203

/-- The latest version of the format that the tables describe. -/
def knownMajor : Nat := 1

def knownMinor : Nat := 4

def knownRevision : Nat := 1

def wordCount : Nat := 5

def byteCount : Nat := 4 * wordCount

def major (header : Header) : Nat :=
  header.version.toNat / 0x10000 % 256

def minor (header : Header) : Nat :=
  header.version.toNat / 0x100 % 256

def tool (header : Header) : Nat :=
  header.generator.toNat / 0x10000

def toolVersion (header : Header) : Nat :=
  header.generator.toNat % 0x10000

/-- Major and minor version with a point between them. -/
def versionText (header : Header) : Bytes :=
  Text.decimal header.major ++ ascii "." ++ Text.decimal header.minor

/-- A whole word in hexadecimal. -/
def wordText (word : Word) : Bytes :=
  ascii "0x" ++ Text.hex 8 word.toNat

def render (header : Header) : Bytes :=
  ascii "magic " ++ wordText header.magic ++
    ascii ", version " ++ header.versionText ++
    ascii ", generator " ++ wordText header.generator ++
    ascii " (tool " ++ Text.decimal header.tool ++ ascii " v" ++ Text.decimal header.toolVersion ++
    ascii "), bound " ++ Text.decimal header.bound.toNat ++
    if header.reserved = 0 then [] else ascii ", reserved " ++ wordText header.reserved

end Header

end SpirvInspector
