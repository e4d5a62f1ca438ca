import Headend.Media.Sink

/-!
# Consumers

A consumer is the receiving end of a video and an audio pipe, as a transcoder is. Its policy says
what it does with them; every policy returns once the session is cancelled. A consumer that returns
lets go of both pipes, and may end the session it works for.
-/

namespace Headend.Plant

open Media

inductive Policy where
  /-- Read both pipes until cancelled. -/
  | consume
  /-- Read both pipes until both have ended. -/
  | untilEnd
  /-- Read nothing until cancelled. -/
  | stall
  | finish
  | fail
  deriving Repr, DecidableEq

inductive Side where
  | video
  | audio
  deriving Repr, DecidableEq

/-- One thing for each side. -/
structure Sides (α : Type) where
  video : α
  audio : α
  deriving Repr, DecidableEq

namespace Sides

variable {α β : Type}

def get (s : Sides α) : Side → α
  | .video => s.video
  | .audio => s.audio

def set (s : Sides α) (side : Side) (a : α) : Sides α :=
  match side with
  | .video => { s with video := a }
  | .audio => { s with audio := a }

def both (a : α) : Sides α := ⟨a, a⟩

theorem get_set (s : Sides α) (side side' : Side) (a : α) :
    (s.set side a).get side' = if side = side' then a else s.get side' := by
  cases side <;> cases side' <;> rfl

end Sides

inductive Consumer.Phase where
  /-- Not yet called. -/
  | ready
  | running
  | returned
  deriving Repr, DecidableEq

structure Consumer where
  policy : Policy
  token : Nat
  /-- Whether its return cancels the token. -/
  endsSession : Bool
  pipes : Sides Nat
  /-- Sides that have ended or broken. -/
  spent : Sides Bool
  received : Sides (List Bytes)
  phase : Consumer.Phase

namespace Consumer

def new (policy : Policy) (token : Nat) (endsSession : Bool) (pipes : Sides Nat) : Consumer :=
  ⟨policy, token, endsSession, pipes, .both false, .both [], .ready⟩

def hasReturned (c : Consumer) : Bool := c.phase == .returned

def hasStarted (c : Consumer) : Bool := c.phase != .ready

/-- Return, and let go of both pipes. -/
def conclude (c : Consumer) (pipes : Pipes) : Consumer × Pipes :=
  ({ c with phase := .returned },
    (pipes.update c.pipes.video Pipe.dropReader).update c.pipes.audio Pipe.dropReader)

/-- Whether the policy has nothing more to wait for. -/
def isDone (c : Consumer) (cancelled : Bool) : Bool :=
  match c.policy with
  | .finish | .fail => true
  | .untilEnd => cancelled || (c.spent.video && c.spent.audio)
  | .consume | .stall => cancelled

/-- Begin, or return if that is due. -/
def step (c : Consumer) (cancelled : Bool) (pipes : Pipes) : Option (Consumer × Pipes) :=
  match c.phase with
  | .ready => some ({ c with phase := .running }, pipes)
  | .running => if c.isDone cancelled then some (c.conclude pipes) else none
  | .returned => none

def reads (c : Consumer) : Bool := c.policy == .consume || c.policy == .untilEnd

/-- Receive one chunk of one side. Nothing is received once the session is cancelled. -/
def receive (c : Consumer) (cancelled : Bool) (side : Side) (pipes : Pipes) :
    Option (Consumer × Pipes) :=
  if cancelled || c.phase != .running || !c.reads || c.spent.get side then none else
  match (pipes.get (c.pipes.get side)).take with
  | .chunk data p =>
    some ({ c with received := c.received.set side (c.received.get side ++ [data]) },
      pipes.set (c.pipes.get side) p)
  | .ended | .broken => some ({ c with spent := c.spent.set side true }, pipes)
  | .wait => none

end Consumer

end Headend.Plant
