import Headend.Codec.H264
import Headend.Media.Writer
import Headend.Rtp.Packet

/-!
# H.264 as a byte stream

Nothing goes out before the first packet that carries a sequence parameter set, for a decoder could
not use it.
-/

namespace Headend.Media

def parseError (e : Rtp.ParseError) : Error := .invalidPacket e.message

structure AnnexB where
  started : Bool
  /-- What has come so far of a NAL unit in fragments. -/
  fragments : Bytes
  deriving Repr, DecidableEq

namespace AnnexB

def new : AnnexB := ⟨false, []⟩

def accept (w : AnnexB) (packet : Bytes) : AnnexB × Move :=
  match Rtp.Packet.parse packet with
  | .crash => (w, .crash)
  | .error e => (w, .finish (.error (parseError e)))
  | .ok p =>
    if p.payload.isEmpty then (w, .finish (.ok 0))
    else if !(w.started || Codec.H264.isKeyframe p.payload) then (w, .finish (.ok 0))
    else
      let (fragments, result) := Codec.H264.depacketize w.fragments p.payload
      (⟨true, fragments⟩,
        match result with
        | .crash => .crash
        | .error e => .finish (.error (.depacketize e.message))
        | .ok [] => .finish (.ok packet.length)
        | .ok stream => .last stream packet.length)

instance : PacketWriter AnnexB where
  accept := accept
  resume w := (w, .finish (.ok 0))

end AnnexB

end Headend.Media
