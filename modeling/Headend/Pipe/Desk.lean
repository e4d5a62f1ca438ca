import Headend.Pipe.Basic

/-!
# Waiting at a pipe

A desk is a pipe together with the operations that wait at its ends: any number of writes, served
first come first served, and at most one read. Operations carry a ticket by which their results can
be told apart. A waiting write keeps the writing end alive.

`step` completes one operation. Which of several that can be completed goes first makes no
difference to the bytes, and `settle` completes writes before reads.
-/

namespace Headend.Pipe

inductive Request where
  | chunk
  | bytes (size : Nat)
  deriving Repr, DecidableEq

inductive Result where
  | written (count : Nat)
  | chunk (data : Bytes)
  | bytes (data : Bytes)
  /-- No chunk, because the writer is gone and the pipe is empty. -/
  | ended
  | broken
  deriving Repr, DecidableEq

/-- One attempt at a write. -/
def tryWrite (p : Pipe) (data : Bytes) : Option (Result × Pipe) :=
  match p.offer data with
  | .accepted n p => some (.written n, p)
  | .broken => some (.broken, p)
  | .wait => none

/-- One attempt at a read. -/
def tryRead (p : Pipe) : Request → Option (Result × Pipe)
  | .chunk =>
    match p.take with
    | .chunk data p => some (.chunk data, p)
    | .ended => some (.ended, p)
    | .broken => some (.broken, p)
    | .wait => none
  | .bytes size =>
    match p.read size with
    | .chunk data p => some (.bytes data, p)
    | .ended => some (.bytes [], p)
    | .broken => some (.broken, p)
    | .wait => none

structure Desk where
  pipe : Pipe
  /-- Waiting writes, the first to be served in front. -/
  writes : List (Nat × Bytes)
  /-- The waiting read. -/
  reading : Option (Nat × Request)
  /-- Whether the writing end was let go. -/
  writerDropped : Bool
  deriving Repr, DecidableEq

namespace Desk

def new (capacity : Nat) : Desk := ⟨.new capacity, [], none, false⟩

/-- The writer is gone once it was let go and no write waits. -/
def release (d : Desk) : Desk :=
  if d.writerDropped && d.writes.isEmpty then { d with pipe := d.pipe.dropWriter } else d

/-! ## Requests -/

def write (d : Desk) (ticket : Nat) (data : Bytes) : Desk :=
  { d with writes := d.writes ++ [(ticket, data)] }

def read (d : Desk) (ticket : Nat) (request : Request) : Desk :=
  { d with reading := some (ticket, request) }

def isBusy (d : Desk) : Bool := d.reading.isSome

def dropWriter (d : Desk) : Desk := release { d with writerDropped := true }

def dropReader (d : Desk) : Desk := { d with pipe := d.pipe.dropReader }

def close (d : Desk) : Desk := { d with pipe := d.pipe.close }

/-- Whether a write is bound to fail. -/
def isClosed (d : Desk) : Bool := d.pipe.closed || d.pipe.readerGone

/-! ## Steps -/

/-- Complete the first write that need not wait. -/
def stepWrite (d : Desk) : Option (Desk × Nat × Result) :=
  d.writes.findSome? fun (ticket, data) =>
    (d.pipe.tryWrite data).map fun (result, pipe) =>
      (release { d with pipe := pipe, writes := d.writes.eraseP fun w => w.1 == ticket },
        ticket, result)

/-- Complete the read. -/
def stepRead (d : Desk) : Option (Desk × Nat × Result) := do
  let (ticket, request) ← d.reading
  let (result, pipe) ← d.pipe.tryRead request
  return ({ d with pipe := pipe, reading := none }, ticket, result)

/-- Complete one operation, unless all have to wait. -/
def step (d : Desk) : Option (Desk × Nat × Result) := d.stepWrite <|> d.stepRead

def settleFor : (fuel : Nat) → Desk → Desk × List (Nat × Result)
  | 0, d => (d, [])
  | fuel + 1, d =>
    match d.step with
    | none => (d, [])
    | some (d, done) =>
      let (d, rest) := settleFor fuel d
      (d, done :: rest)

/-- Complete all that can be completed, and tell what was. -/
def settle (d : Desk) : Desk × List (Nat × Result) :=
  d.settleFor (d.writes.length + 1)

end Desk

end Headend.Pipe
