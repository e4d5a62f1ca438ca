import Headend.Codec
import Headend.Sdp.Direction

/-!
# Transceivers

Each section of an offer is met by a transceiver: one of ours that suits it and has met no other
section, or else one that is made for it. A transceiver has the name of the section it meets.
-/

namespace Headend.Sdp

structure Transceiver where
  kind : MediaKind
  direction : Direction
  /-- What is to be sent. -/
  track : Option LocalTrack
  /-- The name of the section. -/
  mid : Option String
  deriving Repr, DecidableEq

namespace Transceiver

def receiving (kind : MediaKind) : Transceiver := ⟨kind, .receiveOnly, none, none⟩

/-- The transceivers of one who only receives. -/
def receivers : List Transceiver := [receiving .video, receiving .audio]

/-- A transceiver for a track. -/
def ofTrack? (t : LocalTrack) : Option Transceiver :=
  (MediaKind.ofName? t.kindName).map fun kind => ⟨kind, .both, some t, none⟩

/-- The transceivers of one who sends tracks. -/
def senders (ts : List LocalTrack) : List Transceiver := ts.filterMap ofTrack?

end Transceiver

/-- A section that a transceiver can meet. -/
structure Request where
  mid : String
  kind : MediaKind
  offered : Direction
  deriving Repr, DecidableEq

/-- The name of a section. -/
def nameOf (s : Section) : Option String := (attribute? s.attributes "mid").join

def Request.ofSection? (s : Section) : Option Request := do
  return ⟨← nameOf s, ← MediaKind.ofName? s.kind, ← directionOf s⟩

namespace Transceiver

/-- Whether a transceiver is still free, and goes into that direction. -/
def isFor (r : Request) (d : Direction) (t : Transceiver) : Bool :=
  t.mid.isNone && t.kind == r.kind && t.direction == d

/-- Made for a section. -/
def ofRequest (r : Request) : Transceiver where
  kind := r.kind
  direction := if r.offered = .receiveOnly then .sendOnly else .receiveOnly
  track := none
  mid := some r.mid

/-- Find a transceiver for a section. -/
def meet (ts : List Transceiver) (r : Request) : List Transceiver :=
  match r.offered.suited.findSome? fun d => ts.findIdx? (isFor r d) with
  | some i => ts.modify i fun t => { t with mid := some r.mid }
  | none => ts ++ [ofRequest r]

/-- Find transceivers for all sections. -/
def meetAll (ts : List Transceiver) (d : Description) : List Transceiver :=
  (d.sections.filterMap Request.ofSection?).foldl meet ts

end Transceiver

end Headend.Sdp
