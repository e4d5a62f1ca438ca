import Headend.Bytes
import Headend.Outcome

/-!
# H.264 payloads

A payload holds one NAL unit, several aggregated ones, or a fragment of one. Units come out in byte
stream form: each behind a start code. Fragments gather until the one that ends their unit, and the
bytes gathered so far are the only state.
-/

namespace Headend.Codec.H264

def startCode : Bytes := [0, 0, 0, 1]

/-- The type in the header byte of a NAL unit. -/
def nalType (header : UInt8) : UInt8 := header &&& 0x1f

def spsType : UInt8 := 7
def delimiterType : UInt8 := 9
def aggregateType : UInt8 := 24
def fragmentType : UInt8 := 28

/-- Whether a payload opens with a sequence parameter set, alone or aggregated. -/
def isKeyframe (payload : Bytes) : Bool :=
  match payload with
  | [] => false
  | b :: rest =>
    if nalType b = spsType then true
    else if nalType b = aggregateType then
      match rest[2]? with
      | some first => nalType first == spsType
      | none => false
    else false

inductive Fault where
  | shortPacket
  | aggregateOverrun (declared available : Nat)
  | unhandledType (type : UInt8)
  deriving Repr, DecidableEq

def Fault.message : Fault → String
  | shortPacket => "packet is not large enough"
  | aggregateOverrun declared available =>
    s!"STAP-A declared size({declared}) is larger than buffer({available})"
  | unhandledType type => s!"nalu type {type.toNat} is currently not handled"

/-- The units of an aggregate, each behind a start code. A size field that is cut short crashes the
reader. -/
def splitAggregate : (fuel : Nat) → Bytes → Bytes → Outcome Fault Bytes
  | 0, _, out => .ok out
  | fuel + 1, bs, out =>
    match bs with
    | [] => .ok out
    | [_] => .crash
    | hi :: lo :: rest =>
      let size := 256 * hi.toNat + lo.toNat
      if rest.length < size then .error (.aggregateOverrun size rest.length)
      else splitAggregate fuel (rest.drop size) (out ++ startCode ++ rest.take size)

/-- The byte stream that a payload completes, and the fragments gathered after it. -/
def depacketize (fragments : Bytes) (payload : Bytes) : Bytes × Outcome Fault Bytes :=
  match payload with
  | b0 :: b1 :: rest =>
    let type := nalType b0
    if rest.isEmpty && type != delimiterType then (fragments, .error .shortPacket)
    else if 1 ≤ type && type ≤ 23 then (fragments, .ok (startCode ++ payload))
    else if type = aggregateType then
      (fragments, splitAggregate payload.length (b1 :: rest) [])
    else if type = fragmentType then
      let gathered := fragments ++ rest
      if b1 &&& 0x40 != 0 then
        ([], .ok (startCode ++ (b0 &&& 0x60 ||| nalType b1) :: gathered))
      else (gathered, .ok [])
    else (fragments, .error (.unhandledType type))
  | _ => (fragments, .error .shortPacket)

end Headend.Codec.H264
