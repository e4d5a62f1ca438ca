import Headend.Bytes

/-!
# UTF-8

`decode` reads a byte string as UTF-8. A failure says where the first bad sequence begins and how
many of its bytes could not go on, or that the string ends inside a sequence.
-/

namespace Headend.Utf8

structure Error where
  /-- Where the bad sequence begins. -/
  index : Nat
  /-- Bytes of the sequence up to the one that does not fit; none if the string ended. -/
  length : Option Nat
  deriving Repr, DecidableEq

def Error.message (e : Error) : String :=
  match e.length with
  | some n => s!"invalid utf-8 sequence of {n} bytes from index {e.index}"
  | none => s!"incomplete utf-8 byte sequence from index {e.index}"

def isContinuation (b : UInt8) : Bool := 0x80 ≤ b && b ≤ 0xbf

/-- Payload bits of a continuation byte. -/
def bits (b : UInt8) : Nat := b.toNat % 64

/-- Whether `c` can follow the first byte `b` of three. The bounds keep out overlong forms and
surrogates. -/
def fitsThree (b c : UInt8) : Bool :=
  if b = 0xe0 then 0xa0 ≤ c && c ≤ 0xbf
  else if b = 0xed then 0x80 ≤ c && c ≤ 0x9f
  else isContinuation c

/-- Whether `c` can follow the first byte `b` of four. -/
def fitsFour (b c : UInt8) : Bool :=
  if b = 0xf0 then 0x90 ≤ c && c ≤ 0xbf
  else if b = 0xf4 then 0x80 ≤ c && c ≤ 0x8f
  else isContinuation c

def decodeFrom (acc : List Char) (i : Nat) : Bytes → Except Error (List Char)
  | [] => .ok acc.reverse
  | b :: rest =>
    let bad (n : Nat) : Except Error (List Char) := .error ⟨i, some n⟩
    let cut : Except Error (List Char) := .error ⟨i, none⟩
    if b < 0x80 then decodeFrom (Char.ofNat b.toNat :: acc) (i + 1) rest
    else if 0xc2 ≤ b && b ≤ 0xdf then
      match rest with
      | [] => cut
      | c :: rest =>
        if isContinuation c then
          decodeFrom (Char.ofNat (b.toNat % 32 * 64 + bits c) :: acc) (i + 2) rest
        else bad 1
    else if 0xe0 ≤ b && b ≤ 0xef then
      match rest with
      | [] => cut
      | [c] => if fitsThree b c then cut else bad 1
      | c :: d :: rest =>
        if !fitsThree b c then bad 1
        else if !isContinuation d then bad 2
        else decodeFrom
          (Char.ofNat ((b.toNat % 16 * 64 + bits c) * 64 + bits d) :: acc) (i + 3) rest
    else if 0xf0 ≤ b && b ≤ 0xf4 then
      match rest with
      | [] => cut
      | [c] => if fitsFour b c then cut else bad 1
      | [c, d] => if !fitsFour b c then bad 1 else if isContinuation d then cut else bad 2
      | c :: d :: e :: rest =>
        if !fitsFour b c then bad 1
        else if !isContinuation d then bad 2
        else if !isContinuation e then bad 3
        else decodeFrom
          (Char.ofNat (((b.toNat % 8 * 64 + bits c) * 64 + bits d) * 64 + bits e) :: acc) (i + 4)
          rest
    else bad 1

def decode (bytes : Bytes) : Except Error String :=
  (decodeFrom [] 0 bytes).map String.ofList

def encode (s : String) : Bytes := s.toUTF8.toList

end Headend.Utf8
