import Headend.Plant.Consumer
import Headend.Plant.Fan
import Headend.Plant.Relay
import Headend.Token

/-!
# The plant

The plant holds the byte pipes and cancellation tokens of a server together with the tasks that work
on them: fan-outs with their lanes, relays, consumers, and links between tokens. `step` lets one
task make its next step; every interleaving is a sequence of such steps. `settle` plays one of them
until no task can move.
-/

namespace Headend

open Media

namespace Plant

/-- Cancels a token when another one is cancelled, and ends when its own is. -/
structure Link where
  watched : Nat
  linked : Nat
  ended : Bool
  deriving Repr, DecidableEq

end Plant

open Plant in
structure Plant where
  tokens : Tokens
  pipes : Pipes
  fans : List Fan
  relays : List Relay
  consumers : List Consumer
  links : List Link

namespace Plant

inductive Task where
  | lane (fan i : Nat)
  | loop (fan : Nat)
  | relay (k : Nat)
  | receive (consumer : Nat) (side : Side)
  | consumer (k : Nat)
  | link (k : Nat)
  deriving Repr, DecidableEq

def empty : Plant := ⟨.empty, [], [], [], [], []⟩

/-! ## Steps -/

def stepFan (p : Plant) (k : Nat) (run : Fan → Option (Fan × Pipes)) : Option Plant := do
  let fan ← p.fans[k]?
  let (fan, pipes) ← run fan
  return { p with fans := p.fans.set k fan, pipes := pipes }

def stepRelay (p : Plant) (k : Nat) : Option Plant := do
  let relay ← p.relays[k]?
  let (relay, pipes) ← relay.step (p.tokens.cancelled relay.token) p.pipes
  return { p with relays := p.relays.set k relay, pipes := pipes }

def stepConsumer (p : Plant) (k : Nat) : Option Plant := do
  let c ← p.consumers[k]?
  let (d, pipes) ← c.step (p.tokens.cancelled c.token) p.pipes
  let tokens := if d.hasReturned && d.endsSession then p.tokens.cancel d.token else p.tokens
  return { p with consumers := p.consumers.set k d, pipes := pipes, tokens := tokens }

def stepReceive (p : Plant) (k : Nat) (side : Side) : Option Plant := do
  let c ← p.consumers[k]?
  let (c, pipes) ← c.receive (p.tokens.cancelled c.token) side p.pipes
  return { p with consumers := p.consumers.set k c, pipes := pipes }

def stepLink (p : Plant) (k : Nat) : Option Plant := do
  let l ← p.links[k]?
  if l.ended then none
  else if p.tokens.cancelled l.watched then
    some { p with
      tokens := p.tokens.cancel l.linked
      links := p.links.set k { l with ended := true } }
  else if p.tokens.cancelled l.linked then
    some { p with links := p.links.set k { l with ended := true } }
  else none

/-- The next step of one task, unless it has ended or has to wait. -/
def step (p : Plant) : Task → Option Plant
  | .lane k i => p.stepFan k fun f => f.lane i p.pipes
  | .loop k => p.stepFan k fun f => f.loop (p.tokens.cancelled f.token) p.pipes
  | .relay k => p.stepRelay k
  | .receive k side => p.stepReceive k side
  | .consumer k => p.stepConsumer k
  | .link k => p.stepLink k

def laneTasks (k : Nat) (f : Fan) : List Task :=
  (List.range f.sinks.length).map (Task.lane k) ++ [.loop k]

/-- All tasks, whether they can move or not. -/
def tasks (p : Plant) : List Task :=
  (List.range p.links.length).map .link
    ++ ((List.range p.consumers.length).flatMap fun k =>
      [.receive k .video, .receive k .audio, .consumer k])
    ++ (List.range p.relays.length).map .relay
    ++ (p.fans.mapIdx laneTasks).flatten

/-- No task can move. -/
def Settled (p : Plant) : Prop := ∀ t, p.step t = none

/-- The first step that can be made. -/
def next? (p : Plant) : Option Plant := p.tasks.findSome? p.step

/-- More steps than any plant here makes between two outside events. -/
def stepLimit : Nat := 1 <<< 20

def settleFor : (fuel : Nat) → Plant → Plant
  | 0, p => p
  | fuel + 1, p =>
    match p.next? with
    | some p => settleFor fuel p
    | none => p

def settle (p : Plant) : Plant := settleFor stepLimit p

/-! ## Outside events -/

def cancel (p : Plant) (token : Nat) : Plant := { p with tokens := p.tokens.cancel token }

def freshToken (p : Plant) : Plant × Nat :=
  let (tokens, k) := p.tokens.fresh
  ({ p with tokens := tokens }, k)

def childToken (p : Plant) (parent : Nat) : Plant × Nat :=
  let (tokens, k) := p.tokens.child parent
  ({ p with tokens := tokens }, k)

def addPipe (p : Plant) (capacity : Nat) : Plant × Nat :=
  ({ p with pipes := p.pipes ++ [.new capacity] }, p.pipes.length)

def updatePipe (p : Plant) (k : Nat) (f : Pipe → Pipe) : Plant :=
  { p with pipes := p.pipes.update k f }

def updatePipes (p : Plant) (ks : Sides Nat) (f : Pipe → Pipe) : Plant :=
  (p.updatePipe ks.video f).updatePipe ks.audio f

/-- Offer a chunk to a pipe. -/
def offer (p : Plant) (k : Nat) (chunk : Bytes) : Plant × Pipe.Offer :=
  match (p.pipes.get k).offer chunk with
  | .accepted n q => ({ p with pipes := p.pipes.set k q }, .accepted n q)
  | answer => (p, answer)

/-- A token that is cancelled with its parent, and by a link when `watched` is. -/
def linkToken (p : Plant) (parent watched : Nat) : Plant × Nat :=
  let (p, token) := p.childToken parent
  ({ p with links := p.links ++ [⟨watched, token, false⟩] }, token)

def addFan (p : Plant) (fan : Fan) : Plant × Nat :=
  ({ p with fans := p.fans ++ [fan] }, p.fans.length)

def addRelay (p : Plant) (relay : Relay) : Plant × Nat :=
  ({ p with relays := p.relays ++ [relay] }, p.relays.length)

def addConsumer (p : Plant) (c : Consumer) : Plant × Nat :=
  ({ p with consumers := p.consumers ++ [c] }, p.consumers.length)

/-- A consumer that keeps one pipe empty and never returns. -/
def addReader (p : Plant) (pipe : Nat) : Plant × Nat :=
  let (p, token) := p.freshToken
  p.addConsumer { Consumer.new .consume token false (.both pipe) with
    spent := ⟨false, true⟩, phase := .running }

/-- Read all that can be had from a pipe, letting the tasks run in between. -/
def drain : (fuel : Nat) → Plant → (pipe : Nat) → List Bytes → Plant × List Bytes × Pipe.Rest
  | 0, p, _, out => (p, out, .waiting)
  | fuel + 1, p, k, out =>
    let (chunks, pipe, rest) := (p.pipes.get k).drain
    if chunks.isEmpty then (p, out, rest)
    else drain fuel (settle { p with pipes := p.pipes.set k pipe }) k (out ++ chunks)

end Plant

end Headend
