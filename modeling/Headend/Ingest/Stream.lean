import Headend.Hls.Router
import Headend.Plant.Track

/-!
# Ingest streams

A stream is what one broadcaster feeds: two pipes, the tracks republished from it, and the
processors that consume the pipes. Its writing ends go to the first track of each side, its reading
ends to the first run of its processors. Destroying it happens once, whoever asks.
-/

namespace Headend.Ingest

open Plant

/-- A processor is called at most once; from then on its consumer tells what it does. -/
structure Processor where
  policy : Policy
  consumer : Option Nat
  destroys : Nat
  deriving Repr, DecidableEq

structure Stream where
  destroyed : Bool
  /-- The token that is cancelled when the stream is destroyed. -/
  closed : Nat
  pipes : Sides Nat
  /-- Writing ends not yet handed out. -/
  writers : Sides Bool
  /-- Whether the reading ends are still here. -/
  readers : Bool
  tracks : Sides (Option LocalTrack)
  processors : List Processor
  /-- Whether its processors are offered to the HLS routes. -/
  routed : Bool
  /-- The registrations made for it. -/
  routes : List Nat

namespace Stream

/-- A stream with fresh pipes. -/
def allocate (p : Plant) (policies : List Policy) (routed : Bool) : Plant × Stream :=
  let (p, closed) := p.freshToken
  let (p, video) := p.addPipe Pipe.defaultCapacity
  let (p, audio) := p.addPipe Pipe.defaultCapacity
  (p, {
    destroyed := false
    closed := closed
    pipes := ⟨video, audio⟩
    writers := .both true
    readers := true
    tracks := .both none
    processors := policies.map fun policy => ⟨policy, none, 0⟩
    routed := routed
    routes := [] })

/-- Published tracks, audio first. -/
def localTracks (s : Stream) : List LocalTrack :=
  s.tracks.audio.toList ++ s.tracks.video.toList

end Stream

/-- The side that a codec goes to. -/
def sideOf (codec : Codec) : Side :=
  match codec.kind with
  | .audio => .audio
  | .video => .video

end Headend.Ingest
