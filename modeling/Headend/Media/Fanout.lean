import Headend.Media.Error
import Headend.Bytes

/-!
# Fan-out

One loop reads packets from a source and hands each to every lane. A lane is a bounded queue with a
worker behind it, so that a slow worker holds up no other. A full lane loses the packet, or, in a
lossless fan-out, makes the loop wait.

When the source ends the loop waits until the workers have emptied their queues. Cancelling ends
everything at once: what is queued and what a worker holds is lost. Each function here is one step
of the loop or of one worker; a step that cannot be made now is `none`.
-/

namespace Headend.Media

/-- Packets that a lane holds before it is full. -/
def laneDepth : Nat := 256

/-- What a source answers to a read. -/
inductive Reading where
  | packet (data : Bytes)
  | failed (e : Error)
  deriving Repr, DecidableEq

inductive Worker where
  | idle
  | writing (packet : Bytes)
  | ended
  deriving Repr, DecidableEq

structure Lane where
  queue : List Bytes
  worker : Worker
  deriving Repr, DecidableEq

namespace Lane

def new : Lane := ⟨[], .idle⟩

def hasEnded (l : Lane) : Bool := l.worker == .ended

/-- The worker is gone, and the queue with it. -/
def finish (_ : Lane) : Lane := ⟨[], .ended⟩

def isFull (l : Lane) : Bool := laneDepth ≤ l.queue.length

/-- Queue a packet if there is room and someone to take it. -/
def give (l : Lane) (packet : Bytes) : Lane :=
  if l.hasEnded || l.isFull then l else { l with queue := l.queue ++ [packet] }

end Lane

inductive Phase where
  | reading
  /-- A packet in hand that the lanes before `next` have had. -/
  | offering (packet : Bytes) (next : Nat)
  /-- The source has ended, and the workers are emptying their queues. -/
  | draining
  | returned
  deriving Repr, DecidableEq

structure Fanout where
  lossless : Bool
  phase : Phase
  /-- Packets read so far. -/
  packets : Nat
  lanes : List Lane
  deriving Repr, DecidableEq

namespace Fanout

def new (lossless : Bool) (lanes : Nat) : Fanout :=
  ⟨lossless, .reading, 0, List.replicate lanes .new⟩

def hasReturned (f : Fanout) : Bool := f.phase == .returned

def isReading (f : Fanout) : Bool := f.phase == .reading

/-! ## The loop -/

/-- Hand out a packet just read. -/
def packet (f : Fanout) (data : Bytes) : Fanout :=
  if f.lossless then { f with phase := .offering data 0, packets := f.packets + 1 }
  else { f with packets := f.packets + 1, lanes := f.lanes.map (·.give data) }

/-- Take the source's answer. -/
def read (f : Fanout) (r : Reading) : Option Fanout :=
  if !f.isReading then none else
  match r with
  | .packet data => some (f.packet data)
  | .failed e => if e.isTerminal then some { f with phase := .draining } else some f

/-- Cancelled while waiting for the source. -/
def interrupt (f : Fanout) : Option Fanout :=
  if f.isReading then some { f with phase := .draining } else none

/-- Offer the packet in hand to the next lane. Cancelled, the loop offers it to no other. -/
def offer (f : Fanout) (cancelled : Bool) : Option Fanout :=
  match f.phase with
  | .offering data next =>
    if cancelled then some { f with phase := .reading } else
    match f.lanes[next]? with
    | none => some { f with phase := .reading }
    | some lane =>
      if lane.isFull && !lane.hasEnded then none
      else some { f with
        phase := .offering data (next + 1)
        lanes := f.lanes.set next (lane.give data) }
  | _ => none

/-- Return once all workers have ended; cancelled, end them. -/
def close (f : Fanout) (cancelled : Bool) : Option Fanout :=
  if f.phase != .draining then none
  else if cancelled then some { f with phase := .returned, lanes := f.lanes.map Lane.finish }
  else if f.lanes.all Lane.hasEnded then some { f with phase := .returned }
  else none

/-! ## The workers -/

/-- Whether the lanes are closed at the loop's end. -/
def isClosing (f : Fanout) : Bool := f.phase == .draining || f.hasReturned

/-- An idle worker takes the next packet, or ends when no more can come. -/
def receive (f : Fanout) (i : Nat) : Option Fanout :=
  match f.lanes[i]? with
  | some ⟨p :: rest, .idle⟩ => some { f with lanes := f.lanes.set i ⟨rest, .writing p⟩ }
  | some ⟨[], .idle⟩ =>
    if f.isClosing then some { f with lanes := f.lanes.set i ⟨[], .ended⟩ } else none
  | _ => none

/-- A worker is done with its packet; a terminal failure ends it. -/
def complete (f : Fanout) (i : Nat) (terminal : Bool) : Option Fanout :=
  match f.lanes[i]? with
  | some ⟨queue, .writing _⟩ =>
    some { f with lanes := f.lanes.set i (if terminal then ⟨[], .ended⟩ else ⟨queue, .idle⟩) }
  | _ => none

/-- What a worker holds. -/
def worker (f : Fanout) (i : Nat) : Worker := f.lanes[i]?.elim .ended Lane.worker

end Fanout

end Headend.Media
