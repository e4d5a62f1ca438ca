import Headend.Codec
import Headend.Plant.Basic

/-!
# Piping tracks, and sharing pipes

`pipeTrack` reads a track and writes it to a pipe: Opus and VP8 through a muxer, whose output a
relay copies to the pipe, and H.264 directly. `split` gives each of several consumers its own copy
of a video and an audio pipe.
-/

namespace Headend.Plant

open Media

/-- What turns a codec into a container, if one is needed. -/
def muxerFor : Codec → Option Muxer
  | .opus => some .opus
  | .vp8 => some .vp8
  | .h264 => none

/-- Start to read a track. Without a target it is only republished. -/
def pipeTrack (p : Plant) (codec : Codec) (token : Nat) (source : Source) (republish : Bool)
    (target : Option Nat) : Plant × Nat :=
  let sinks := if republish then [Sink.new .republish] else []
  match target, muxerFor codec with
  | some k, some m =>
    let (p, inner) := p.addPipe Pipe.defaultCapacity
    let (p, _) := p.addRelay (.new token inner [.new .forward (some k)])
    p.addFan (.new token source false (sinks ++ [.new (.muxer m) (some inner)]))
  | some k, none => p.addFan (.new token source false (sinks ++ [.new (.annexB .new) (some k)]))
  | none, _ => p.addFan (.new token source false sinks)

/-- `count` new pipes that each get everything the source pipe carries. -/
def share (p : Plant) (count token source : Nat) : Plant × List Nat :=
  let outs := (List.range count).map (p.pipes.length + ·)
  let p := { p with pipes := p.pipes ++ List.replicate count (Pipe.new Pipe.defaultCapacity) }
  let (p, _) := p.addFan
    (.new token (.pipe source) true (outs.map fun k => .new .forward (some k)))
  (p, outs)

/-- The pipes that each of `count` consumers reads. A single one reads the given pipes themselves;
if there is none, the pipes are emptied all the same. -/
def split (p : Plant) (count token : Nat) (pipes : Sides Nat) : Plant × List (Sides Nat) :=
  if count = 1 then (p, [pipes]) else
  let (p, videos) := p.share count token pipes.video
  let (p, audios) := p.share count token pipes.audio
  (p, videos.zipWith Sides.mk audios)

end Headend.Plant
