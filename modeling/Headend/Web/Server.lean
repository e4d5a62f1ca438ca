import Headend.Files
import Headend.Hls.Segment
import Headend.Ingest.Registry
import Headend.Orchestrator
import Headend.Sdp.Answer
import Headend.Text.Percent
import Headend.Web.Offer
import Headend.Web.Request
import Headend.Web.Resource
import Headend.Web.Response

/-!
# The server

The server holds the registry of the active stream, the orchestrator, and the HLS routes that both
register. Shutdown of the registry stops the orchestrator too.
-/

namespace Headend.Web

open Hls Ingest Plant

/-- Where the files of an HLS session are. -/
structure Output where
  dir : String
  manifest : String
  deriving Repr, DecidableEq

structure Server where
  broadcaster : Option String
  registry : Registry
  orchestrator : Orchestrator
  /-- The routes in force; the registry and the orchestrator get them for every step they make. -/
  router : Router Target
  /-- Whether shutdown has reached the orchestrator. -/
  stopped : Bool
  /-- What a new stream gets, or why there is none. -/
  allocation : Except String (List Policy)
  /-- What the processors of orchestrated streams do. -/
  legacyPolicies : List Policy
  /-- Outputs of the outside world, and the routes that they have or had. -/
  outputs : List (Nat × Option Output)
  files : Files

namespace Server

def version : String := "0.1.0"

def new (broadcaster : Option String) (failFast : Bool) (allocation : Except String (List Policy))
    (legacyPolicies : List Policy) (files : Files) : Server where
  broadcaster := broadcaster
  registry := .new failFast
  orchestrator := .new (broadcaster.getD "ingest")
  router := .new
  stopped := false
  allocation := allocation
  legacyPolicies := legacyPolicies
  outputs := []
  files := files

/-! ## Parts -/

def withOrchestrator (s : Server) (o : Orchestrator) : Server :=
  { s with orchestrator := o, router := o.router }

/-- The orchestrator, up to date with the routes. -/
def current (s : Server) : Orchestrator := { s.orchestrator with router := s.router }

/-- Let shutdown reach the orchestrator, once. -/
def propagate (s : Server) : Server :=
  if s.registry.shutdown.triggered && !s.stopped then
    withOrchestrator { s with stopped := true } s.current.stop
  else s

def withRegistry (s : Server) (r : Registry) : Server :=
  propagate { s with registry := r, router := r.router }

def streams (s : Server) : Registry := { s.registry with router := s.router }

/-- Let all tasks run until none can move. -/
def settle (s : Server) : Server :=
  let s := s.withRegistry s.streams.settle
  s.withOrchestrator s.current.settle

def trigger (s : Server) : Server := s.withRegistry s.streams.trigger

/-- Start a session whose token is cancelled with the server's. -/
def startSession (s : Server) : Server × Except String Nat :=
  let (plant, token) := s.registry.plant.childToken s.registry.root
  let (r, result) := Registry.startSession { s.streams with plant := plant } token s.allocation
  (s.withRegistry r, result)

/-- Register an output of the outside world. -/
def register (s : Server) (output : Option Output) : Server × Nat :=
  let (router, id) := s.router.register (.outside s.outputs.length)
  ({ s with router := router, outputs := s.outputs ++ [(id, output)] }, s.outputs.length)

/-- Take back the route of an output, and tell whether it was in force. -/
def unregister (s : Server) (k : Nat) : Server × Bool :=
  match s.outputs[k]? with
  | none => (s, false)
  | some (id, _) =>
    let (router, found) := s.router.unregister id
    ({ s with router := router }, found)

def endSession (s : Server) (k : Nat) : Server :=
  match s.registry.sessions[k]? with
  | none => s
  | some session => { s with
      registry := { s.registry with plant := s.registry.plant.cancel session.token } }

/-- Publish a track from the active stream, if there is one. -/
def publish (s : Server) (track : LocalTrack) : Option Server :=
  s.registry.active.map fun a => s.withRegistry (s.streams.publish a.stream track)

/-- What is published by the active stream. -/
def localTracks (s : Server) : Option (List LocalTrack) :=
  (s.registry.active.bind fun a => s.registry.streams[a.stream]?).map Stream.localTracks

/-! ## Handlers -/

/-- Answer an offer, with some transceivers. -/
def negotiate (offer : String) (ts : List Sdp.Transceiver) : Except Fault Response :=
  match Sdp.answer offer ts with
  | .ok sections => .ok ⟨201, [contentType "application/sdp", uncached], .answer sections⟩
  | .error .badOffer => .error (.badOffer "Invalid SDP offer")
  | .error .unsupportedTrack => .error (.negotiation "Failed to set local description")

/-- A publisher: only an offer that is answered replaces the active stream. -/
def ingress (s : Server) (body : Bytes) : Server × Except Fault Response :=
  match readOffer body >>= fun offer => negotiate offer Sdp.Transceiver.receivers with
  | .error f => (s, .error f)
  | .ok response =>
    if s.registry.shutdown.triggered then
      (s, .error (.peerConnection "Publisher disconnected during negotiation"))
    else match s.startSession with
      | (s, .ok _) => (s, .ok response)
      | (s, .error reason) => (s, .error (.allocation reason))

def egress (s : Server) (body : Bytes) : Except Fault Response := do
  let offer ← readOffer body
  match s.localTracks with
  | none | some [] => .error .noActiveStream
  | some tracks => negotiate offer (Sdp.Transceiver.senders tracks)

/-- A publisher to the orchestrated stream: a bad offer stops the orchestrator. -/
def legacy (s : Server) (body : Bytes) : Server × Except Fault Response :=
  match readOffer body with
  | .error f => (s, .error f)
  | .ok offer =>
    match s.current.register ⟨s.legacyPolicies, none⟩ >>= Orchestrator.start with
    | .error e => (s, .error e.toFault)
    | .ok o =>
      match negotiate offer Sdp.Transceiver.receivers with
      | .ok response => (s.withOrchestrator o, .ok response)
      | .error f => (s.withOrchestrator o.stop, .error f)

/-- The output of the route in force. -/
def output (s : Server) : Except Fault Output :=
  match s.router.processor? with
  | none => .error (.notFound "No HLS stream")
  | some (.outside k) =>
    match (s.outputs[k]?).bind Prod.snd with
    | some output => .ok output
    | none => .error (.notFound "HLS output not ready")
  | some _ => .error (.notFound "HLS output not ready")

def playlist (s : Server) : Except Fault Response := do
  let output ← s.output
  match s.files.content? output.manifest with
  | some data => return ⟨200,
      [contentType "application/vnd.apple.mpegurl", uncached, length data], .bytes data⟩
  | none => .error (.notFound ("Manifest " ++ output.manifest))

/-- Segments are sent as they are read, without their length. -/
def segment (s : Server) (name : String) : Except Fault Response := do
  validateSegment name
  let output ← s.output
  let path := segmentPath output.dir name
  match s.files.content? path with
  | some data => return ⟨200, [contentType "application/octet-stream", uncached], .bytes data⟩
  | none => .error (.notFound ("Segment " ++ path))

/-! ## Requests -/

/-- The largest body that is read. -/
def bodyLimit : Nat := 2097152

def respond (r : Except Fault Response) : Response :=
  match r with
  | .ok response => response
  | .error f => .ofFault f

def read (s : Server) : Resource → Response
  | .health => health version s.broadcaster s.registry.active.isSome
  | .playlist => respond s.playlist
  | .segment name =>
    match Utf8.decode (Percent.decode (textBytes name)) with
    | .ok name => respond (s.segment name)
    | .error _ => .text 400 "Invalid URL: Invalid UTF-8 in \x60segment\x60"
  | .ingress | .legacy | .egress => .empty 405

def post (s : Server) (resource : Resource) (body : Bytes) : Server × Response :=
  if bodyLimit < body.length then
    (s, .text 413 "Failed to buffer the request body: length limit exceeded")
  else match resource with
    | .ingress => let (s, r) := s.ingress body; (s, respond r)
    | .legacy => let (s, r) := s.legacy body; (s, respond r)
    | .egress => (s, respond (s.egress body))
    | .health | .playlist | .segment _ => (s, .empty 405)

/-- The answer to a question what is allowed: everything, also where nothing is. -/
def preflight (path : String) : Response :=
  let r := ((Response.empty 200).withHeader ("access-control-allow-methods", "*")).withHeader
    ("access-control-allow-headers", "*")
  match (Resource.find? path).filter fun x => !x.methods.contains "OPTIONS" with
  | some resource => r.withHeader resource.allow
  | none => r

/-- Answer a request. -/
def handle (s : Server) (r : Request) : Server × Response :=
  let (s, response) :=
    if r.method == "OPTIONS" then (s, preflight r.path) else
    match Resource.find? r.path with
    | none => (s, .empty 404)
    | some resource =>
      if !resource.methods.contains r.method then (s, (Response.empty 405).withHeader resource.allow)
      else if resource.isRead then (s, s.read resource)
      else s.post resource r.body
  (s, Response.shared (if r.method == "HEAD" then response.headOnly else response))

end Server

end Headend.Web
