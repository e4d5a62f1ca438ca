import Headend.Codec.Opus
import Headend.Codec.Vp8
import Headend.Rtp.Clock
import Headend.Rtp.Sequence
import Headend.Rtp.Slots

/-!
# Assembling samples from packets

An `Assembler` puts packets back in order and joins them into samples. `push` stores a packet and
gives up on the oldest ones once the stored range is longer than `depth`; `pop` yields the next
sample whose following packet has arrived. A sample lasts until the timestamp of the packet after
it.

Two spans of sequence numbers drive it. `filled` stretches over every packet stored; `active` is the
part that samples are cut from. Cutting a sample frees the oldest slots, two at most, so packets of
it may stay behind: inside `filled`, but outside `active`.
-/

namespace Headend.Rtp

/-! ## Depacketizers -/

inductive Depacketizer where
  | opus
  | vp8 (fields : Codec.Vp8.Fields)
  deriving Repr, DecidableEq

namespace Depacketizer

def clockRate : Depacketizer → Nat
  | opus => Codec.Opus.clockRate
  | vp8 _ => Codec.Vp8.clockRate

/-- Whether a payload can begin a sample. -/
def isHead : Depacketizer → Bytes → Bool
  | opus, _ => true
  | vp8 _, payload => Codec.Vp8.isHead payload

/-- Whether a packet ends its sample. -/
def isTail : Depacketizer → Packet → Bool
  | opus, _ => true
  | vp8 _, p => p.marker

def depacketize : Depacketizer → Bytes → Depacketizer × Option Bytes
  | opus, payload => (opus, Codec.Opus.depacketize payload)
  | vp8 fields, payload =>
    let (fields, part) := Codec.Vp8.depacketize fields payload
    (vp8 fields, part)

/-- The parts of all packets joined, unless one of them is refused. -/
def join : Depacketizer → List Packet → Bytes → Depacketizer × Option Bytes
  | d, [], data => (d, some data)
  | d, p :: ps, data =>
    match d.depacketize p.payload with
    | (d, some part) => d.join ps (data ++ part)
    | (d, none) => (d, none)

end Depacketizer

/-! ## Assemblers -/

structure Sample where
  data : Bytes
  /-- How long it lasts, in nanoseconds. -/
  nanos : Nat
  deriving Repr, DecidableEq

structure Assembler where
  codec : Depacketizer
  slots : Slots
  filled : Span
  active : Span
  ready : List Sample
  deriving Repr, DecidableEq

namespace Assembler

/-- Sequence numbers held back for reordering before a gap is given up. -/
def depth : Nat := 10

def new (codec : Depacketizer) : Assembler :=
  ⟨codec, .empty, .empty, .empty, []⟩

/-- Free the oldest slot. -/
def dropOldest (a : Assembler) : Assembler :=
  { a with
    slots := a.slots.erase a.filled.head
    filled := { a.filled with head := a.filled.head + 1 } }

/-- Free the oldest slot if it lies before the span, or, when `within`, inside it. -/
def release (a : Assembler) (span : Span) (within : Bool) : Assembler :=
  if a.filled.isEmpty then a else
  match span.locate a.filled.head with
  | .before => a.dropOldest
  | .inside => if within then a.dropOldest else a
  | _ => a

/-- Start over on everything stored if nothing is active. -/
def activate (a : Assembler) : Assembler :=
  if a.active.isEmpty then { a with active := a.filled } else a

/-- The span of the next sample: up to a packet that ends it, or up to the first packet of another
timestamp. -/
def scan (a : Assembler) (timestamp : UInt32) : (fuel : Nat) → (n : UInt16) → Option Span
  | 0, _ => none
  | fuel + 1, n =>
    match a.slots.get? n with
    | none => none
    | some p =>
      if a.active.locate n = .after then none
      else if a.codec.isTail p && p.timestamp == timestamp then some ⟨a.active.head, n + 1⟩
      else if p.timestamp != timestamp then some ⟨a.active.head, n⟩
      else a.scan timestamp fuel (n + 1)

/-- The first packet of the next sample and the sample's span. -/
def next? (a : Assembler) : Option (Packet × Span) := do
  let first ← a.slots.get? a.active.head
  let span ← a.scan first.timestamp 65536 a.active.head
  return (first, span)

/-- The timestamp at which a sample ends: that of the next packet stored, counting up from the
sample's end to the end of the active span without wrapping, or else the sample's own. -/
def endOf (a : Assembler) (first : Packet) (span : Span) : UInt32 :=
  match a.slots.first? (a.active.tail.toNat - span.tail.toNat) span.tail with
  | some p => p.timestamp
  | none => first.timestamp

/-- Give up on a span that does not begin with the head of a sample. -/
def skip (a : Assembler) (span : Span) : Assembler :=
  let a := a.release span true
  let a := a.release a.active false
  { a with active := { a.active with head := span.tail } }

/-- Join the packets of a span into a sample. The span counts as read even if a packet of it is
refused. -/
def take (a : Assembler) (first : Packet) (span : Span) : Assembler × Bool :=
  let nanos := elapsedNanos a.codec.clockRate first.timestamp (a.endOf first span)
  let a := { a with active := { a.active with head := span.tail } }
  match a.codec.join (a.slots.run span.width span.head) [] with
  | (codec, none) => ({ a with codec := codec }, false)
  | (codec, some data) =>
    let sample : Sample := { data, nanos }
    let a := { a with codec := codec, ready := a.ready ++ [sample] }
    let a := a.release span true
    (a.release a.active false, true)

/-- The active span reaches as far as the stored one. -/
def extend (a : Assembler) : Assembler :=
  if a.filled.locate a.active.tail = .inside then
    { a with active := { a.active with tail := a.filled.tail } }
  else a

/-- Cut the next sample, and tell whether there was one. Unless `purging`, the packet after it must
have arrived. -/
def build (a : Assembler) (purging : Bool) : Assembler × Bool :=
  let a := a.activate
  if a.active.isEmpty then (a, false) else
  let a := a.extend
  match a.next? with
  | none => (a, false)
  | some (first, span) =>
    if !purging && !a.slots.has span.tail then (a, false)
    else if a.codec.isHead first.payload then a.take first span
    else (a.skip span, false)

/-- One round of making room: the oldest slot goes, as a sample if one begins there. -/
def purgeOldest (a : Assembler) : Assembler :=
  let a := a.activate
  if !a.active.isEmpty && a.active.head == a.filled.head then
    match a.build true with
    | (a, true) => a
    | (a, false) => { a with active := { a.active with head := a.active.head + 1 } }.dropOldest
  else a.dropOldest

/-- Make room until at most `depth` numbers are stored. -/
def purge : (fuel : Nat) → Assembler → Assembler
  | 0, a => a
  | fuel + 1, a =>
    if a.filled.count > depth && !a.filled.isEmpty then purge fuel a.purgeOldest else a

/-- Store a packet. -/
def push (a : Assembler) (p : Packet) : Assembler :=
  let a := { a with
    slots := a.slots.insert p.sequence p
    filled := a.filled.stretch p.sequence }
  purge 65536 (a.release a.active false)

/-- Take the next sample out. -/
def pop (a : Assembler) : Assembler × Option Sample :=
  let a := (a.build false).1
  match a.ready with
  | [] => (a, none)
  | s :: rest => ({ a with ready := rest }, some s)

end Assembler

end Headend.Rtp
