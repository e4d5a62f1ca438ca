import Headend.WebM.Track

/-!
# WebM streams of simple blocks

The stream header goes out with the first block. Blocks are grouped into clusters; a block's
timestamp is stored relative to that of its cluster in a signed 16-bit field. Segment and clusters
have no size of their own, so that everything can be written front to back.
-/

namespace Headend.WebM

open Ebml

structure Block where
  track : Nat
  keyframe : Bool
  /-- Milliseconds. -/
  timestamp : Nat
  data : Bytes
  deriving Repr, DecidableEq

structure BlockWriter where
  tracks : List Track
  started : Bool
  /-- Timestamp of the open cluster. -/
  cluster : Option Nat
  deriving Repr, DecidableEq

/-- The largest relative timestamp. -/
def maxRelative : Nat := 32767

/-- A keyframe opens a new cluster once the open one spans this many milliseconds. -/
def clusterSpan : Nat := 1000

def application : String := "stream-ingest"

/-- What stands before the first cluster. -/
def header (tracks : List Track) : Bytes :=
  binary Id.ebml
      (uint Id.ebmlVersion 1 ++ uint Id.ebmlReadVersion 1 ++ uint Id.ebmlMaxIdLength 4
        ++ uint Id.ebmlMaxSizeLength 8 ++ string Id.docType "webm" ++ uint Id.docTypeVersion 4
        ++ uint Id.docTypeReadVersion 2)
    ++ openEnded Id.segment
    ++ binary Id.info
      (uint Id.timestampScale 1000000 ++ string Id.muxingApp application
        ++ string Id.writingApp application)
    ++ binary Id.tracks (tracks.flatMap Track.encode)

/-- Whether a block can join a cluster that starts at `start`. -/
def fits (start : Nat) (keyframe : Bool) (timestamp : Nat) : Bool :=
  start ≤ timestamp && timestamp - start ≤ maxRelative
    && !(keyframe && clusterSpan ≤ timestamp - start)

def clusterHead (timestamp : Nat) : Bytes :=
  openEnded Id.cluster ++ uint Id.timestamp timestamp

def Block.encode (b : Block) (start : Nat) : Bytes :=
  binary Id.simpleBlock <|
    Vint.encode b.track ++ toBigEndian 2 (b.timestamp - start)
      ++ [if b.keyframe then 0x80 else 0] ++ b.data

namespace BlockWriter

def new (tracks : List Track) : BlockWriter := ⟨tracks, false, none⟩

/-- The cluster that takes a block: the open one if the block fits, else one of its own. -/
def clusterFor (w : BlockWriter) (b : Block) : Nat × Bytes :=
  match w.cluster with
  | some start =>
    if fits start b.keyframe b.timestamp then (start, []) else (b.timestamp, clusterHead b.timestamp)
  | none => (b.timestamp, clusterHead b.timestamp)

/-- The bytes of one block with what must precede it. -/
def write (w : BlockWriter) (b : Block) : BlockWriter × Bytes :=
  let (start, opening) := w.clusterFor b
  ({ w with started := true, cluster := some start },
    (if w.started then [] else header w.tracks) ++ opening ++ b.encode start)

/-- The bytes of each of several blocks. -/
def writeAll (w : BlockWriter) : List Block → List Bytes
  | [] => []
  | b :: bs =>
    let (w, out) := w.write b
    out :: w.writeAll bs

end BlockWriter

/-- The block timestamp of a position given in nanoseconds: whole microseconds, rounded to the
nearest millisecond, as an unsigned 64-bit number. -/
def blockTimestamp (nanos : Nat) : Nat := (nanos / 1000 + 500) / 1000 % UInt64.size

end Headend.WebM
