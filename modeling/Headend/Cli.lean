import Headend.Log.Directive
import Headend.Net.Sockets
import Headend.Settings.Options
import Headend.Text.Quote

/-!
# The command

What the command prints and how it ends, as a function of its arguments and environment. A server
that gets as far as listening runs until it is told to stop.
-/

namespace Headend.Cli

open Log Flags

def programName : String := "stream-ingest"

def version : String := "0.1.0"

def about : String := "WHIP/WHEP ingest with HLS egress"

/-- The target of the server's own lines. -/
def root : String := "stream_ingest"

/-! ## Arguments -/

inductive Verbosity where
  | error
  | warn
  | info
  | verbose
  | debug
  | trace
  deriving Repr, DecidableEq

namespace Verbosity

def names : List (String × Verbosity) :=
  [("error", error), ("warn", warn), ("info", info), ("verbose", verbose), ("debug", debug),
   ("trace", trace)]

def filter (v : Verbosity) : Filter :=
  let ranks : List (String × Nat) := match v with
    | error => [(root, 1), ("tower_http", 1)]
    | warn => [(root, 2), ("tower_http", 2)]
    | info => [(root, 3), ("tower_http", 3)]
    | verbose => [(root, 4), ("tower_http", 3)]
    | debug => [(root, 4), ("tower_http", 4)]
    | trace => [(root, 5), ("tower_http", 4), ("webrtc", 4)]
  ranks.map fun (target, rank) => .ofTarget target rank

/-- Counting overrides naming. -/
def effective (named : Verbosity) : (count : Nat) → Verbosity
  | 0 => named
  | 1 => verbose
  | 2 => debug
  | _ => trace

end Verbosity

/-- A truth value in one of its two plain spellings. -/
def plainTruth (v : String) : Option Refusal :=
  if v == "true" || v == "false" then none else some .invalidValue

def flags : List Flag :=
  [ { name := "log-level", short := 'l', metavar := "LEVEL", default := "info"
      about := "Log level (error, warn, info, verbose, debug, trace)"
      choices := Verbosity.names.map Prod.fst
      check := checked (fun v => Verbosity.names.lookup v) .invalidValue },
    { name := "verbose", short := 'v', arity := .count
      about := "Increase verbosity (-v for verbose, -vv for debug, -vvv for trace)" },
    { name := "log-json", arity := .switch, env := "INGEST_LOG_JSON"
      about := "Emit logs as JSON lines", check := plainTruth } ]
  ++ Options.flags
  ++ [Options.help,
    { name := "version", short := 'V', arity := .version, about := "Print version" }]

/-! ## The run -/

structure Report where
  exit : Nat
  /-- Whether log lines are JSON. -/
  json : Bool
  printed : List Printed
  /-- What is wrong, if that ends the command. -/
  failure : Option String
  deriving Repr, DecidableEq

/-- The report on a command that says something else than the log. -/
def Report.plain (exit : Nat) (text : List String) : Report :=
  ⟨exit, false, text.map .text, none⟩

/-- What is printed, line by line. -/
def Report.lines (r : Report) : List String :=
  r.printed.map fun
    | .line l => if r.json then l.json else s!"{l.level.name} {l.target}: {l.message}"
    | .text s => s

/-- The environment variables that are asked for. -/
def variableNames : List String := "RUST_LOG" :: Options.tempVariable :: flags.filterMap (·.env)

def line (part : String) (level : Level) (message : String) : Line where
  level := level
  target := if part.isEmpty then root else root ++ "::" ++ part
  message := message

def info (part message : String) : Line := line part .info message

/-- The complaint about a port that is no number. -/
def portComplaint (kind raw : String) (default : Nat) : List Line :=
  if (Options.port? raw).isSome then []
  else [line "config" .error s!"Wrong {kind} port {raw}. Fallback to {default}"]

def relayComplaint (o : Options) : List Line :=
  if o.turnEnable && o.turnServer.isNone then
    [line "config" .warn "TURN is enabled but TURN_URL is empty"]
  else []

def greeting : Line := info "" s!"Starting {programName} v{version}"

/-- What is said while the settings are read. -/
def settingsLog (o : Options) : List Line :=
  portComplaint "http" o.httpPort Options.defaultHttpPort ++ relayComplaint o
    ++ portComplaint "udp" o.udpPort Options.defaultIcePort
    ++ portComplaint "tcp" o.tcpPort Options.defaultIcePort

/-- What is said once the media port is open. -/
def mediaLog (o : Options) (udp : Net.Endpoint) (interfaces : List String) : List Line :=
  let ips := (o.publicIp.map fun ip => [ip]).getD interfaces
  [info "webrtc::api" s!"Listening UDP for WebRTC traffic on {udp.toString}",
    info "webrtc::api"
      s!"ICE-TCP port {o.tcpPortNumber} configured; webrtc-rs gathers UDP candidates only"]
  ++ (if ips.isEmpty then []
    else [info "webrtc::api" ("Announcing host candidates for " ++ Quote.texts ips)])
  ++ [info "" s!"ICE UDP mux listening on {udp.toString}"]

/-- What the HTTP service says of its own end, to those who want to know everything. -/
def drainingLog : List Line :=
  ["received graceful shutdown signal. Telling tasks to shutdown",
   "signal received, not accepting new connections",
   "waiting for 0 task(s) to finish"].map fun message => ⟨.trace, "axum::serve", message⟩

/-- What is said from the signal to stop until the end. -/
def stoppingLog (o : Options) : List Line :=
  [info "" "SIGTERM received"] ++ drainingLog ++ [
  info "shutdown" "Shutdown triggered",
  info "orchestrator" s!"[{o.name}] Stopping orchestrator",
  info "shutdown" "Shutdown triggered",
  info "" "Server shutdown complete"]

/-- Start the server, and stop it once it listens. -/
def serve (o : Options) (sockets : Net.Sockets) (interfaces : List String) :
    List Line × Option String :=
  match o.httpAddress with
  | .error e => ([greeting], some ("Invalid HTTP address: " ++ e))
  | .ok address =>
    let said := greeting :: settingsLog o
    match sockets.bind .udp ⟨Net.Sockets.unspecifiedV4, o.udpPortNumber⟩ with
    | .error e => (said, some (s!"Peer connection error: Failed to bind ICE UDP port "
        ++ s!"{o.udpPortNumber}: {e.message}"))
    | .ok (sockets, udp) =>
      let said := said ++ mediaLog o udp interfaces
      match sockets.bind .tcp address with
      | .error e => (said, some e.message)
      | .ok (_, http) =>
        (said ++ [info "" s!"Starting HTTP server on {http.toString}"] ++ stoppingLog o, none)

/-- The filter that the arguments ask for. -/
def filterOf (p : Parsed) : Filter :=
  let named := ((p.get? "log-level").bind fun v => Verbosity.names.lookup v).getD .info
  (named.effective (p.counted.filter (· == "verbose")).length).filter

/-- The filter that the environment asks for, or else the one that the arguments do; none if reading
it crashes. -/
def chosenFilter (p : Parsed) (env : List (String × String)) : Option Filter :=
  match (env.lookup "RUST_LOG").map readFilter with
  | some (.ok f) => some f
  | some .crash => none
  | _ => some (filterOf p)

/-- How the command exits if it crashes. -/
def crashed : Nat := 101

def run (args : List String) (env : List (String × String)) (sockets : Net.Sockets)
    (interfaces : List String) : Report :=
  match parse flags args env with
  | .error .displayVersion => .plain 0 [programName ++ " " ++ version]
  | .error .displayHelp => .plain 0 (helpText about programName env flags)
  | .error _ => .plain 2 []
  | .ok p =>
    match chosenFilter p env with
    | none => .plain crashed []
    | some filter =>
      let (log, failure) := serve (.ofParsed p env) sockets interfaces
      let json := p.get? "log-json" == some "true"
      { exit := if failure.isSome then 1 else 0
        json := json
        printed := (log.filter (allows filter)).flatMap fun l =>
          if json then [.line l] else l.printed
        failure := failure }

end Headend.Cli
