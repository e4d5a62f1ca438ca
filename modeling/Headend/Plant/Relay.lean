import Headend.Media.Sink

/-!
# Relays

A relay copies a pipe chunk by chunk to its sinks, one after the other. It waits for a sink as long
as that takes, and goes on when a sink fails. Cancelling ends it only while it waits for a chunk. A
sink that crashes takes the relay with it.
-/

namespace Headend.Plant

open Media

inductive Relay.Phase where
  | waiting
  /-- The chunk in hand goes to this sink next. -/
  | serving (chunk : Bytes) (next : Nat)
  | ended
  | crashed
  deriving Repr, DecidableEq

structure Relay where
  token : Nat
  source : Nat
  sinks : List Sink
  phase : Relay.Phase
  /-- Bytes taken from the source. -/
  copied : Nat

namespace Relay

def new (token source : Nat) (sinks : List Sink) : Relay := ⟨token, source, sinks, .waiting, 0⟩

def hasEnded (r : Relay) : Bool := r.phase == .ended || r.phase == .crashed

/-- Bytes copied in all, unless the relay still runs or has crashed. -/
def total? (r : Relay) : Option Nat := if r.phase == .ended then some r.copied else none

/-- Let go of the source and of all targets. -/
def finish (r : Relay) (last : Relay.Phase) (pipes : Pipes) : Relay × Pipes :=
  ({ r with phase := last },
    r.sinks.foldl (fun ps s => s.drop ps) (pipes.update r.source Pipe.dropReader))

def step (r : Relay) (cancelled : Bool) (pipes : Pipes) : Option (Relay × Pipes) :=
  match r.phase with
  | .ended | .crashed => none
  | .waiting =>
    if cancelled then some (r.finish .ended pipes) else
    match (pipes.get r.source).take with
    | .chunk data p =>
      some ({ r with phase := .serving data 0, copied := r.copied + data.length },
        pipes.set r.source p)
    | .ended | .broken => some (r.finish .ended pipes)
    | .wait => none
  | .serving chunk next =>
    match r.sinks[next]? with
    | none => some ({ r with phase := .waiting }, pipes)
    | some sink =>
      match sink.move with
      | none => some ({ r with sinks := r.sinks.set next (sink.start chunk) }, pipes)
      | some _ => do
        let (sink, pipes, progress) ← sink.advance pipes
        let r := { r with sinks := r.sinks.set next sink }
        return match progress with
          | .working => (r, pipes)
          | .done _ => ({ r with phase := .serving chunk (next + 1) }, pipes)
          | .crashed => r.finish .crashed pipes

end Relay

end Headend.Plant
