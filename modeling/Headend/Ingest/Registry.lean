import Headend.Ingest.Stream
import Headend.Shutdown

/-!
# The registry of the active stream

The registry keeps at most one stream. A new session replaces the stream before it, and every
session is driven by a task that runs the stream's processors and releases it at the end. Sessions,
runs and pipings are named by their position.

`step` lets one task make its next step: a task of the plant, a run of processors, or a piping. What
happens between two points at which a task waits is one step.
-/

namespace Headend.Ingest

open Plant Hls

inductive RunPhase where
  | called
  | running
  | returned
  deriving Repr, DecidableEq

/-- One call to run a stream's processors. -/
structure Run where
  stream : Nat
  /-- The token of the session it was called for. -/
  token : Nat
  /-- Its own token, which the stream's end cancels too. -/
  session : Option Nat
  /-- Whether it releases the stream when it is over. -/
  drives : Bool
  phase : RunPhase
  deriving Repr, DecidableEq

inductive PipingPhase where
  | called
  | running (fan : Nat)
  | returned
  deriving Repr, DecidableEq

/-- One call to pipe a track into a stream. -/
structure Piping where
  stream : Nat
  codec : Codec
  token : Nat
  source : Source
  phase : PipingPhase
  deriving Repr, DecidableEq

structure Active where
  stream : Nat
  token : Nat
  /-- Shutdown tasks that destroy the stream and cancel the session. -/
  tasks : List Nat
  deriving Repr, DecidableEq

inductive Teardown where
  | destroy (stream : Nat)
  | cancel (token : Nat)
  deriving Repr, DecidableEq

structure Session where
  stream : Nat
  token : Nat
  deriving Repr, DecidableEq

structure Registry where
  plant : Plant
  /-- The token that shutdown cancels. -/
  root : Nat
  shutdown : Shutdown Teardown
  router : Router Target
  failFast : Bool
  active : Option Active
  streams : List Stream
  sessions : List Session
  runs : List Run
  pipings : List Piping

namespace Registry

def new (failFast : Bool) : Registry :=
  let (plant, root) := Plant.empty.freshToken
  ⟨plant, root, .new, .new, failFast, none, [], [], [], []⟩

/-! ## Streams -/

def updateStream (r : Registry) (s : Nat) (f : Stream → Stream) : Registry :=
  { r with streams := r.streams.modify s f }

def unregisterRoutes (r : Registry) (s : Nat) : Registry :=
  match r.streams[s]? with
  | none => r
  | some stream =>
    let router := stream.routes.foldl (fun router id => (router.unregister id).1) r.router
    updateStream { r with router := router } s fun x => { x with routes := [] }

/-- Let go of the ends that were never taken. -/
def dropEnds (stream : Stream) (p : Plant) : Plant :=
  let dropWriter (p : Plant) (side : Side) : Plant :=
    if stream.writers.get side then p.updatePipe (stream.pipes.get side) Pipe.dropWriter else p
  let dropReader (p : Plant) (side : Side) : Plant :=
    if stream.readers then p.updatePipe (stream.pipes.get side) Pipe.dropReader else p
  let p := dropWriter (dropWriter p .video) .audio
  dropReader (dropReader p .video) .audio

/-- Release pipes, processors, routes and tracks. Only the first call does anything. -/
def destroy (r : Registry) (s : Nat) : Registry :=
  match r.streams[s]? with
  | none => r
  | some stream =>
    if stream.destroyed then r else
    let r := unregisterRoutes { r with plant := r.plant.cancel stream.closed } s
    let plant := dropEnds stream (r.plant.updatePipes stream.pipes Pipe.close)
    updateStream { r with plant := plant } s fun x =>
      { x with
        destroyed := true
        writers := .both false
        readers := false
        tracks := .both none
        processors := x.processors.map fun q => { q with destroys := q.destroys + 1 } }

/-! ## The slot -/

def teardown (r : Registry) : Teardown → Registry
  | .destroy s => r.destroy s
  | .cancel token => { r with plant := r.plant.cancel token }

/-- Trigger shutdown: the root token first, then the pending tasks, newest first. -/
def trigger (r : Registry) : Registry :=
  if r.shutdown.triggered then r else
  let (shutdown, tasks) := r.shutdown.trigger
  tasks.foldl teardown { r with shutdown := shutdown, plant := r.plant.cancel r.root }

def addTask (r : Registry) (task : Teardown) : Registry × Nat :=
  let (shutdown, id, now) := r.shutdown.add task
  (now.elim { r with shutdown := shutdown } (teardown { r with shutdown := shutdown }), id)

/-- End a session that has left the slot. -/
def release (r : Registry) (a : Active) : Registry :=
  let r := destroy { r with plant := r.plant.cancel a.token } a.stream
  { r with shutdown := a.tasks.foldl (fun s id => (s.remove id).1) r.shutdown }

/-- Empty the slot if the stream is still in it, and tell whether it was. -/
def releaseIfCurrent (r : Registry) (s : Nat) : Registry × Bool :=
  match r.active with
  | some a => if a.stream = s then (release { r with active := none } a, true) else (r, false)
  | none => (r, false)

/-- Make room in the slot. -/
def supersede (r : Registry) : Registry :=
  match r.active with
  | some a => release { r with active := none } a
  | none => r

/-- Add a stream outside the slot. -/
def addStream (r : Registry) (policies : List Policy) (routed : Bool) : Registry × Nat :=
  let (plant, stream) := Stream.allocate r.plant policies routed
  ({ r with plant := plant, streams := r.streams ++ [stream] }, r.streams.length)

/-- Replace the active stream by a new one and start a session on it. If no stream can be allocated
the slot stays empty. -/
def startSession (r : Registry) (parent : Nat) (allocation : Except String (List Policy)) :
    Registry × Except String Nat :=
  let r := r.supersede
  match allocation with
  | .error reason => (r, .error reason)
  | .ok policies =>
    let (r, s) := r.addStream policies true
    let (plant, token) := r.plant.childToken parent
    let (r, destroyTask) := addTask { r with plant := plant } (.destroy s)
    let (r, cancelTask) := r.addTask (.cancel token)
    ({ r with
        active := some ⟨s, token, [destroyTask, cancelTask]⟩
        sessions := r.sessions ++ [⟨s, token⟩]
        runs := r.runs ++ [⟨s, token, none, true, .called⟩] },
      .ok r.sessions.length)

/-- Call for a run of a stream's processors. -/
def ingest (r : Registry) (s token : Nat) : Registry :=
  { r with runs := r.runs ++ [⟨s, token, none, false, .called⟩] }

/-- Call for a track to be piped into a stream. -/
def pipe (r : Registry) (s : Nat) (codec : Codec) (token : Nat) (source : Source) : Registry :=
  { r with pipings := r.pipings ++ [⟨s, codec, token, source, .called⟩] }

/-- Publish a track, in the place of one of its kind. -/
def publish (r : Registry) (s : Nat) (track : LocalTrack) : Registry :=
  r.updateStream s fun x =>
    { x with tracks := x.tracks.set (if track.id = "audio" then .audio else .video) (some track) }

/-! ## Runs -/

/-- Call one processor on its two pipes. -/
def startProcessor (r : Registry) (s session i : Nat) (pipes : Sides Nat) : Registry :=
  match r.streams[s]? with
  | none => r
  | some stream =>
    match stream.processors[i]? with
    | none => r
    | some q =>
      let r :=
        if stream.routed then
          let (router, id) := r.router.register (.ofStream s i)
          updateStream { r with router := router } s fun x => { x with routes := x.routes ++ [id] }
        else r
      let (plant, consumer) := r.plant.addConsumer (.new q.policy session true pipes)
      updateStream { r with plant := plant } s fun x =>
        { x with processors := x.processors.set i { q with consumer := some consumer } }

/-- Hand the pipes out to the processors and call them. -/
def startRun (r : Registry) (k : Nat) (run : Run) (stream : Stream) : Registry :=
  let (plant, session) := r.plant.linkToken run.token stream.closed
  let (plant, inputs) := plant.split stream.processors.length session stream.pipes
  let r := updateStream { r with plant := plant } run.stream fun x => { x with readers := false }
  let r := inputs.zipIdx.foldl (fun r (pipes, i) => r.startProcessor run.stream session i pipes) r
  { r with runs := r.runs.set k { run with session := some session, phase := .running } }

/-- All processors that were called have returned. -/
def processorsReturned (r : Registry) (s : Nat) : Bool :=
  (r.streams[s]?.elim [] Stream.processors).all fun q =>
    q.consumer.all fun c => (r.plant.consumers[c]?).all Consumer.hasReturned

/-- What the driver of a session does when its run is over. -/
def endSession (r : Registry) (run : Run) : Registry :=
  let r := destroy { r with plant := r.plant.cancel run.token } run.stream
  match r.releaseIfCurrent run.stream with
  | (r, true) => if r.failFast then r.trigger else r
  | (r, false) => r

def finishRun (r : Registry) (k : Nat) (run : Run) : Registry :=
  let r := { r with runs := r.runs.set k { run with phase := .returned } }
  if run.drives then r.endSession run else r

def stepRun (r : Registry) (k : Nat) : Option Registry := do
  let run ← r.runs[k]?
  let stream ← r.streams[run.stream]?
  match run.phase with
  | .called =>
    if stream.readers then return r.startRun k run stream
    else
      let (plant, session) := r.plant.linkToken run.token stream.closed
      return finishRun { r with plant := plant } k { run with session := some session }
  | .running =>
    let session ← run.session
    if r.plant.tokens.cancelled session && r.processorsReturned run.stream then
      return (r.unregisterRoutes run.stream).finishRun k run
    else none
  | .returned => none

/-! ## Pipings -/

def stepPiping (r : Registry) (k : Nat) : Option Registry := do
  let piping ← r.pipings[k]?
  let stream ← r.streams[piping.stream]?
  match piping.phase with
  | .called =>
    let side := sideOf piping.codec
    let target := if stream.writers.get side then some (stream.pipes.get side) else none
    let (plant, token) := r.plant.linkToken piping.token stream.closed
    let (plant, fan) := plant.pipeTrack piping.codec token piping.source
      (stream.tracks.get side).isSome target
    let r := { r with plant := plant, pipings := r.pipings.set k { piping with phase := .running fan } }
    return r.updateStream piping.stream fun x => { x with writers := x.writers.set side false }
  | .running fan =>
    if (r.plant.fans[fan]?).all fun f => f.core.hasReturned then
      return { r with pipings := r.pipings.set k { piping with phase := .returned } }
    else none
  | .returned => none

/-! ## Steps -/

inductive Task where
  | plant (t : Plant.Task)
  | run (k : Nat)
  | piping (k : Nat)
  deriving Repr, DecidableEq

/-- The next step of one task, unless it has ended or has to wait. -/
def step (r : Registry) : Task → Option Registry
  | .plant t => (r.plant.step t).map fun plant => { r with plant := plant }
  | .run k => r.stepRun k
  | .piping k => r.stepPiping k

/-- All tasks, whether they can move or not. -/
def tasks (r : Registry) : List Task :=
  r.plant.tasks.map .plant ++ (List.range r.pipings.length).map .piping
    ++ (List.range r.runs.length).map .run

/-- No task can move. -/
def Settled (r : Registry) : Prop := ∀ t, r.step t = none

def settleFor : (fuel : Nat) → Registry → Registry
  | 0, r => r
  | fuel + 1, r =>
    match r.tasks.findSome? r.step with
    | some r => settleFor fuel r
    | none => r

def settle (r : Registry) : Registry := settleFor Plant.stepLimit r

end Registry

end Headend.Ingest
