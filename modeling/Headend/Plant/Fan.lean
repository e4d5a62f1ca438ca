import Headend.Media.Fanout
import Headend.Media.Sink

/-!
# Fan-outs at work

A `Fan` joins a fan-out with its source and with the sinks behind its lanes. Each step is one step
of the loop or of one lane, and works on the pipes that source and sinks name. What ends lets go of
its pipe: a lane of its target, the loop of its source.
-/

namespace Headend.Plant

open Media

inductive Source where
  /-- Answers in turn; afterwards the end of the stream, or, if it `hangs`, nothing ever. -/
  | script (readings : List Reading) (hangs : Bool)
  | pipe (k : Nat)
  deriving Repr, DecidableEq

namespace Source

/-- One read, unless it has to wait. -/
def read (s : Source) (pipes : Pipes) : Option (Reading × Source × Pipes) :=
  match s with
  | script (r :: rest) hangs => some (r, script rest hangs, pipes)
  | script [] hangs => if hangs then none else some (.failed .endOfStream, s, pipes)
  | pipe k =>
    match (pipes.get k).take with
    | .chunk data p => some (.packet data, s, pipes.set k p)
    | .ended => some (.failed .endOfStream, s, pipes)
    | .broken => some (.failed .pipeClosed, s, pipes)
    | .wait => none

/-- Let go of the pipe. -/
def drop (s : Source) (pipes : Pipes) : Pipes :=
  match s with
  | pipe k => pipes.update k Pipe.dropReader
  | script _ _ => pipes

end Source

structure Fan where
  /-- The token that cancels it. -/
  token : Nat
  source : Source
  core : Fanout
  /-- One sink for each lane. -/
  sinks : List Sink

namespace Fan

def new (token : Nat) (source : Source) (lossless : Bool) (sinks : List Sink) : Fan :=
  ⟨token, source, .new lossless sinks.length, sinks⟩

/-- The next step of the loop. -/
def loop (f : Fan) (cancelled : Bool) (pipes : Pipes) : Option (Fan × Pipes) :=
  match f.core.phase with
  | .reading =>
    if cancelled then f.core.interrupt.map fun core => ({ f with core := core }, pipes)
    else do
      let (reading, source, pipes) ← f.source.read pipes
      let core ← f.core.read reading
      return ({ f with source := source, core := core }, pipes)
  | .offering _ _ => (f.core.offer cancelled).map fun core => ({ f with core := core }, pipes)
  | .draining => do
    let core ← f.core.close cancelled
    let pipes := if cancelled then f.sinks.foldl (fun ps s => s.drop ps) pipes else pipes
    return ({ f with core := core }, f.source.drop pipes)
  | .returned => none

/-- End a lane if its worker has. -/
def settleLane (f : Fan) (i : Nat) (sink : Sink) (pipes : Pipes) : Fan × Pipes :=
  ({ f with sinks := f.sinks.set i sink },
    if f.core.worker i = .ended then sink.drop pipes else pipes)

/-- The next step of the worker behind a lane. -/
def lane (f : Fan) (i : Nat) (pipes : Pipes) : Option (Fan × Pipes) := do
  let sink ← f.sinks[i]?
  match f.core.worker i with
  | .ended => none
  | .idle =>
    let core ← f.core.receive i
    let sink := match core.worker i with
      | .writing packet => sink.start packet
      | _ => sink
    return settleLane { f with core := core } i sink pipes
  | .writing _ =>
    let (sink, pipes, progress) ← sink.advance pipes
    let core ← match progress with
      | .working => some f.core
      | .done (.error e) => f.core.complete i e.isTerminal
      | .done (.ok _) => f.core.complete i false
      | .crashed => f.core.complete i true
    return settleLane { f with core := core } i sink pipes

end Fan

end Headend.Plant
