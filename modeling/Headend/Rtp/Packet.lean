import Headend.Bytes
import Headend.Outcome

/-!
# RTP packets

`Packet.parse` reads the fixed header, the contributing sources, the header extension in its
one-byte, two-byte or opaque form, and the padding. An extension element may run past the extension
into the payload; past the end of the packet the reader crashes. `Packet.plain` and `Packet.encode`
write packets that have neither sources, extension nor padding.
-/

namespace Headend.Rtp

structure Extension where
  id : UInt8
  payload : Bytes
  deriving Repr, DecidableEq

structure Packet where
  version : UInt8
  padding : Bool
  extension : Bool
  marker : Bool
  payloadType : UInt8
  sequence : UInt16
  timestamp : UInt32
  ssrc : UInt32
  csrc : List UInt32
  /-- Zero for a packet without a header extension. -/
  profile : UInt16
  extensions : List Extension
  /-- Bytes of padding met between the extension's elements. -/
  extensionPadding : Nat
  payload : Bytes
  deriving Repr, DecidableEq

inductive ParseError where
  | shortHeader
  | shortExtension
  | shortPacket
  deriving Repr, DecidableEq

def ParseError.message : ParseError → String
  | shortHeader => "RTP header size insufficient"
  | shortExtension => "RTP header size insufficient for extension"
  | shortPacket => "packet is not large enough"

/-! ## Header extensions -/

/-- What an extension holds, and the bytes after it. -/
structure Elements where
  found : List Extension
  skipped : Nat
  rest : Bytes

/-- Elements with a one-byte header while `left` bytes of the extension remain. Id 15 ends them at
once. -/
def oneByteElements : (fuel left : Nat) → Bytes → List Extension → Nat → Option Elements
  | 0, _, bs, found, skipped => some ⟨found, skipped, bs⟩
  | fuel + 1, left, bs, found, skipped =>
    if left = 0 then some ⟨found, skipped, bs⟩ else
    match bs with
    | [] => none
    | b :: rest =>
      if b = 0 then oneByteElements fuel (left - 1) rest found (skipped + 1) else
      let id := b >>> 4
      let size := (b &&& 0x0f).toNat + 1
      if id = 15 then some ⟨found, skipped, rest⟩ else
      if rest.length < size then none else
      oneByteElements fuel (left - 1 - size) (rest.drop size)
        (found ++ [⟨id, rest.take size⟩]) skipped

/-- Elements with a two-byte header while `left` bytes of the extension remain. -/
def twoByteElements : (fuel left : Nat) → Bytes → List Extension → Nat → Option Elements
  | 0, _, bs, found, skipped => some ⟨found, skipped, bs⟩
  | fuel + 1, left, bs, found, skipped =>
    if left = 0 then some ⟨found, skipped, bs⟩ else
    match bs with
    | [] => none
    | 0 :: rest => twoByteElements fuel (left - 1) rest found (skipped + 1)
    | [_] => none
    | id :: size :: rest =>
      if rest.length < size.toNat then none else
      twoByteElements fuel (left - 2 - size.toNat) (rest.drop size.toNat)
        (found ++ [⟨id, rest.take size.toNat⟩]) skipped

def oneByteProfile : UInt16 := 0xBEDE
def twoByteProfile : UInt16 := 0x1000

/-- An extension of `size` bytes in the form that `profile` names. -/
def Elements.read (profile : UInt16) (size : Nat) (bs : Bytes) : Option Elements :=
  if profile = oneByteProfile then oneByteElements size size bs [] 0
  else if profile = twoByteProfile then twoByteElements size size bs [] 0
  else some ⟨[⟨0, bs.take size⟩], 0, bs.drop size⟩

/-! ## Packets -/

/-- Successive four-byte numbers. -/
def words : (count : Nat) → Bytes → List UInt32
  | 0, _ => []
  | count + 1, bs => UInt32.ofNat (bigEndian (bs.take 4)) :: words count (bs.drop 4)

/-- Remove the padding that the last byte counts. -/
def unpad (bs : Bytes) : Option Bytes :=
  match bs.getLast? with
  | none => none
  | some n => if bs.length < n.toNat then none else some (bs.take (bs.length - n.toNat))

/-- The extension header at the start of `bs` and what it announces. -/
def readExtension (bs : Bytes) : Outcome ParseError (UInt16 × Elements) :=
  if bs.length < 4 then .error .shortExtension else
  let profile := UInt16.ofNat (bigEndian (bs.take 2))
  let size := 4 * bigEndian ((bs.drop 2).take 2)
  let rest := bs.drop 4
  if rest.length < size then .error .shortExtension else
  match Elements.read profile size rest with
  | some elements => .ok (profile, elements)
  | none => .crash

def Packet.parse (bs : Bytes) : Outcome ParseError Packet :=
  match bs with
  | b0 :: b1 :: rest =>
    let sources := (b0 &&& 0x0f).toNat
    if bs.length < 12 + 4 * sources then .error .shortHeader else do
    let body := rest.drop (10 + 4 * sources)
    let hasExtension := b0 &&& 0x10 != 0
    let (profile, elements) ←
      if hasExtension then readExtension body else pure (0, ⟨[], 0, body⟩)
    let padded := b0 &&& 0x20 != 0
    let payload ← if padded then
        match unpad elements.rest with
        | some payload => pure payload
        | none => .error .shortPacket
      else pure elements.rest
    return {
      version := b0 >>> 6
      padding := padded
      extension := hasExtension
      marker := b1 &&& 0x80 != 0
      payloadType := b1 &&& 0x7f
      sequence := UInt16.ofNat (bigEndian (rest.take 2))
      timestamp := UInt32.ofNat (bigEndian ((rest.drop 2).take 4))
      ssrc := UInt32.ofNat (bigEndian ((rest.drop 6).take 4))
      csrc := words sources (rest.drop 10)
      profile := profile
      extensions := elements.found
      extensionPadding := elements.skipped
      payload := payload }
  | _ => .error .shortHeader

/-- A version 2 packet with nothing but the fixed header in front of its payload. -/
def Packet.plain (payloadType : UInt8) (sequence : UInt16) (timestamp ssrc : UInt32)
    (marker : Bool) (payload : Bytes) : Packet where
  version := 2
  padding := false
  extension := false
  marker := marker
  payloadType := payloadType &&& 0x7f
  sequence := sequence
  timestamp := timestamp
  ssrc := ssrc
  csrc := []
  profile := 0
  extensions := []
  extensionPadding := 0
  payload := payload

/-- The fixed header and the payload. -/
def Packet.encode (p : Packet) : Bytes :=
  [(p.version <<< 6), (if p.marker then 0x80 else 0) ||| p.payloadType]
    ++ toBigEndian 2 p.sequence.toNat ++ toBigEndian 4 p.timestamp.toNat
    ++ toBigEndian 4 p.ssrc.toNat ++ p.payload

end Headend.Rtp
