import Headend.Ingest.Stream
import Headend.Shutdown
import Headend.Web.Fault

/-!
# The orchestrator

The orchestrator runs one stream for a control that is registered once: it gives the control two
pipes and two local tracks to feed, and calls the control's processors on the reading ends. All of
its teardown goes through its own shutdown.

As in the registry, `step` lets one task make its next step.
-/

namespace Headend

open Plant Ingest Hls

namespace Orchestrator

inductive State where
  | idle
  | controlRegistered
  | running
  | stopped
  deriving Repr, DecidableEq

def State.name : State → String
  | idle => "Idle"
  | controlRegistered => "ControlRegistered"
  | running => "Running"
  | stopped => "Stopped"

inductive Error where
  | alreadyAssigned
  | noControl
  | invalidState (state : State)
  | control (reason : String)
  deriving Repr, DecidableEq

namespace Error

def message : Error → String
  | alreadyAssigned => "control already assigned"
  | noControl => "no control registered"
  | invalidState s => "orchestrator is " ++ s.name ++ ", cannot start"
  | control reason => "control failed: " ++ reason

/-- How a request that ran into the error fails. -/
def toFault : Error → Web.Fault
  | alreadyAssigned => .alreadyAssigned
  | e => .internal e.message

end Error

/-- The source of an orchestrated stream. -/
structure Control where
  processors : List Policy
  /-- Why it cannot feed a stream. -/
  refusal : Option String
  deriving Repr, DecidableEq

inductive Teardown where
  | closePipes (pipes : Sides Nat)
  | destroy (processor : Nat)
  | unregister (route : Nat)
  /-- Something of the outside world. -/
  | other (name : String)
  deriving Repr, DecidableEq

inductive Launch where
  | notCalled
  | called
  | running
  | done
  deriving Repr, DecidableEq

end Orchestrator

open Orchestrator in
structure Orchestrator where
  name : String
  plant : Plant
  /-- The token that shutdown cancels. -/
  root : Nat
  shutdown : Shutdown Orchestrator.Teardown
  router : Router Target
  state : State
  control : Option Control
  processors : List Ingest.Processor
  tracks : Option (Sides LocalTrack)
  pipes : Option (Sides Nat)
  /-- Whether the control still has the writing ends. -/
  feeding : Bool
  launch : Launch
  /-- Teardown tasks of the outside world that ran. -/
  outside : List String

namespace Orchestrator

def new (name : String) : Orchestrator :=
  let (plant, root) := Plant.empty.freshToken
  { name, plant, root, shutdown := .new, router := .new, state := .idle, control := none
    processors := [], tracks := none, pipes := none, feeding := false, launch := .notCalled, outside := [] }

/-! ## Shutdown -/

def teardown (o : Orchestrator) : Teardown → Orchestrator
  | .closePipes pipes => { o with plant := o.plant.updatePipes pipes Pipe.close }
  | .destroy i => { o with
      processors := o.processors.modify i fun q => { q with destroys := q.destroys + 1 } }
  | .unregister route => { o with router := (o.router.unregister route).1 }
  | .other name => { o with outside := o.outside ++ [name] }

/-- Trigger shutdown: the root token first, then the pending tasks, newest first. -/
def trigger (o : Orchestrator) : Orchestrator :=
  if o.shutdown.triggered then o else
  let (shutdown, tasks) := o.shutdown.trigger
  tasks.foldl teardown { o with shutdown := shutdown, plant := o.plant.cancel o.root }

def addTask (o : Orchestrator) (task : Teardown) : Orchestrator :=
  let (shutdown, _, now) := o.shutdown.add task
  let o := { o with shutdown := shutdown }
  now.elim o o.teardown

/-- Tear everything down. Stopping twice does nothing more. -/
def stop (o : Orchestrator) : Orchestrator :=
  if o.state = .stopped then o else trigger { o with state := .stopped }

/-! ## Starting -/

/-- Assign the control. Only the first one is taken. -/
def register (o : Orchestrator) (c : Control) : Except Error Orchestrator :=
  if o.control.isSome then .error .alreadyAssigned
  else .ok { o with
    control := some c
    state := .controlRegistered
    processors := c.processors.map fun policy => ⟨policy, none, 0⟩ }

def localTracks (streamId : String) : Sides LocalTrack :=
  ⟨.ofMime Codec.h264.mime streamId, .ofMime Codec.opus.mime streamId⟩

/-- Give the control its pipes and tracks, and call its processors. A control that refuses drops the
pipes, and its processors run all the same. -/
def start (o : Orchestrator) : Except Error Orchestrator :=
  match o.control with
  | none => .error .noControl
  | some c =>
    if o.state != .controlRegistered then .error (.invalidState o.state) else
    let (plant, video) := o.plant.addPipe Pipe.defaultCapacity
    let (plant, audio) := plant.addPipe Pipe.defaultCapacity
    let o := addTask { o with
      plant := plant
      state := .running
      tracks := some (localTracks o.name)
      pipes := some ⟨video, audio⟩
      feeding := c.refusal.isNone
      launch := .called } (.closePipes ⟨video, audio⟩)
    let plant :=
      if c.refusal.isSome then o.plant.updatePipes ⟨video, audio⟩ Pipe.dropWriter else o.plant
    .ok ((List.range c.processors.length).foldl (fun o i => o.addTask (.destroy i))
      { o with plant := plant })

/-! ## Feeding -/

/-- The pipes that the control feeds. -/
def feeds (o : Orchestrator) : Option (Sides Nat) := if o.feeding then o.pipes else none

/-- Offer a chunk from the control. -/
def feed (o : Orchestrator) (side : Side) (chunk : Bytes) : Orchestrator × Option Pipe.Offer :=
  match o.feeds with
  | none => (o, none)
  | some pipes =>
    let (plant, answer) := o.plant.offer (pipes.get side) chunk
    ({ o with plant := plant }, some answer)

/-- Take the writing ends from the control, and tell whether it had them. -/
def dropPipes (o : Orchestrator) : Orchestrator × Bool :=
  match o.feeds with
  | none => (o, false)
  | some pipes =>
    ({ o with plant := o.plant.updatePipes pipes Pipe.dropWriter, feeding := false }, true)

/-- The local track for a codec, and whether it gets the writing end of the pipe, if that is still
there. VP8 is not taken. -/
def route (tracks : Sides LocalTrack) (writers : Sides Bool) (codec : Option Codec) :
    Option (Codec × LocalTrack × Bool) × Sides Bool :=
  match codec with
  | some .opus =>
    (some (.opus, tracks.audio, writers.audio), { writers with audio := false })
  | some .h264 =>
    (some (.h264, tracks.video, writers.video), { writers with video := false })
  | some .vp8 | none => (none, writers)

/-! ## Steps -/

inductive Task where
  | plant (t : Plant.Task)
  | launch
  deriving Repr, DecidableEq

/-- Call one processor on its two pipes. -/
def startProcessor (o : Orchestrator) (i : Nat) (pipes : Sides Nat) : Orchestrator :=
  match o.processors[i]? with
  | none => o
  | some q =>
    let (router, route) := o.router.register (.ofControl i)
    let o := addTask { o with router := router } (.unregister route)
    let (plant, consumer) := o.plant.addConsumer (.new q.policy o.root false pipes)
    { o with
      plant := plant
      processors := o.processors.modify i fun q => { q with consumer := some consumer } }

def processorsReturned (o : Orchestrator) : Bool :=
  o.processors.all fun q => q.consumer.all fun c => (o.plant.consumers[c]?).all Consumer.hasReturned

/-- Call the processors, and wait for them to return. -/
def stepLaunch (o : Orchestrator) : Option Orchestrator :=
  match o.launch, o.pipes with
  | .called, some pipes =>
    let (plant, inputs) := o.plant.split o.processors.length o.root pipes
    let o := { o with plant := plant, launch := .running }
    some (inputs.zipIdx.foldl (fun o (pipes, i) => o.startProcessor i pipes) o)
  | .running, _ => if o.processorsReturned then some { o with launch := .done } else none
  | _, _ => none

def step (o : Orchestrator) : Task → Option Orchestrator
  | .plant t => (o.plant.step t).map fun plant => { o with plant := plant }
  | .launch => o.stepLaunch

def tasks (o : Orchestrator) : List Task := o.plant.tasks.map .plant ++ [.launch]

/-- No task can move. -/
def Settled (o : Orchestrator) : Prop := ∀ t, o.step t = none

def settleFor : (fuel : Nat) → Orchestrator → Orchestrator
  | 0, o => o
  | fuel + 1, o =>
    match o.tasks.findSome? o.step with
    | some o => settleFor fuel o
    | none => o

def settle (o : Orchestrator) : Orchestrator := settleFor Plant.stepLimit o

end Orchestrator

end Headend
