import Headend.Media.AnnexB
import Headend.Rtp.Assembler
import Headend.WebM.BlockWriter

/-!
# Muxing RTP into WebM

Packets are assembled into samples, and each sample becomes one block. The stream of an Opus track
can begin at once; that of a VP8 track needs the frame size, so it begins with the first keyframe
whose header gives one, and the samples before it are lost.
-/

namespace Headend.Media

open WebM

structure Muxer where
  assembler : Rtp.Assembler
  /-- The stream, once it can begin. -/
  blocks : Option BlockWriter
  /-- Nanoseconds written so far. -/
  position : Nat
  /-- Bytes and samples that the packet in hand has given. -/
  written : Nat
  samples : Nat
  deriving Repr, DecidableEq

namespace Muxer

def opus : Muxer := ⟨.new .opus, some (.new [Track.opus]), 0, 0, 0⟩

def vp8 : Muxer := ⟨.new (.vp8 .none), none, 0, 0, 0⟩

/-- Every Opus frame can be decoded on its own. -/
def isKeyframe (m : Muxer) (frame : Bytes) : Bool :=
  match m.assembler.codec with
  | .opus => true
  | .vp8 _ => Codec.Vp8.isKeyframe frame

/-- The stream that takes a frame: the one begun, or one that the frame can begin. -/
def streamFor (m : Muxer) (frame : Bytes) : Option BlockWriter :=
  match m.blocks with
  | some w => some w
  | none => (Codec.Vp8.keyframeSize frame).map fun (width, height) => .new [Track.vp8 width height]

/-- Frame size of the video track, once it is known. -/
def dimensions (m : Muxer) : Option (Nat × Nat) := do
  let w ← m.blocks
  let track ← w.tracks.head?
  match track.media with
  | .video width height => some (width, height)
  | .audio _ _ => none

/-- What a packet counts for when no more samples come of it. -/
def result (m : Muxer) : Except Error Nat :=
  if m.blocks.isNone then .error .notReady
  else if m.samples = 0 then .error .emptySample
  else .ok m.written

/-- Write the next sample. -/
def resume (m : Muxer) : Muxer × Move :=
  match m.assembler.pop with
  | (a, none) =>
    let m := { m with assembler := a }
    (m, .finish m.result)
  | (a, some s) =>
    let m := { m with assembler := a, samples := m.samples + 1 }
    match m.streamFor s.data with
    | none => (m, .again)
    | some w =>
      let position := m.position + s.nanos
      let (w, out) := w.write ⟨1, m.isKeyframe s.data, blockTimestamp position, s.data⟩
      ({ m with blocks := some w, position := position, written := m.written + out.length },
        .emit out)

def accept (m : Muxer) (packet : Bytes) : Muxer × Move :=
  match Rtp.Packet.parse packet with
  | .crash => (m, .crash)
  | .error e => (m, .finish (.error (parseError e)))
  | .ok p => resume { m with assembler := m.assembler.push p, written := 0, samples := 0 }

instance : PacketWriter Muxer where
  accept := accept
  resume := resume

end Muxer

end Headend.Media
