import Headend.Ebml.Vint

/-!
# EBML elements

An element is an identifier, a size and a body. Identifiers are written as they are: their own first
bit tells their length.
-/

namespace Headend.Ebml

abbrev Id := Nat

/-- The base-256 digits that `n` needs. -/
def byteCount (n : Nat) : Nat :=
  if n = 0 then 0 else n.log2 / 8 + 1

/-- An identifier has one to four bytes. -/
def Id.encode (id : Id) : Bytes :=
  toBigEndian (min 4 (max 1 (byteCount id))) id

/-- The size field of an element that lasts until something ends it. -/
def unknownSize : Bytes := [0x01, 0xff, 0xff, 0xff, 0xff, 0xff, 0xff, 0xff]

def binary (id : Id) (body : Bytes) : Bytes :=
  id.encode ++ Vint.encode body.length ++ body

/-- The shortest big-endian form; zero takes one byte. -/
def uintBody (n : Nat) : Bytes := toBigEndian (max 1 (byteCount n)) n

def uint (id : Id) (n : Nat) : Bytes := binary id (uintBody n)

/-- A 64-bit floating-point number, given by its bits. -/
def float (id : Id) (bits : UInt64) : Bytes := binary id (toBigEndian 8 bits.toNat)

def utf8 (s : String) : Bytes := s.toUTF8.data.toList

def string (id : Id) (s : String) : Bytes := binary id (utf8 s)

/-- The start of an element of unknown size. -/
def openEnded (id : Id) : Bytes := id.encode ++ unknownSize

end Headend.Ebml
