import Headend.Net.Address
import Headend.Settings.Flags
import Headend.Settings.Ice
import Headend.Text.Number
import Headend.Text.Space

/-!
# Settings

What the server is told by its command line and environment, and what it makes of that. A port that
is no number falls back to the default; the reason goes to the log.
-/

namespace Headend

open Flags Net

structure Options where
  httpHost : String
  httpPort : String
  udpPort : String
  tcpPort : String
  natPublicIp : Option String
  turnEnable : Bool
  turnUrl : Option String
  turnUsername : Option String
  turnPassword : Option String
  broadcasterId : Option String
  username : Option String
  /-- Stop the process when a session ends. -/
  failFast : Bool
  ffmpegPath : String
  /-- Seconds in a segment. -/
  hlsTime : Nat
  /-- Segments kept in the playlist. -/
  hlsListSize : Nat
  hlsDir : Option String
  gatherSeconds : Nat
  /-- Where the system has its temporary files. -/
  tempDir : String
  deriving Repr, DecidableEq

namespace Options

def numberBelow32 : String → Option Refusal := checked (signedBelow? UInt32.size) .valueValidation

def truth : String → Option Refusal := checked boolean? .valueValidation

/-- In the order in which the environment is asked. -/
def flags : List Flag := [
  { name := "http-host", env := "INGEST_HTTP_HOST", about := "HTTP listen host"
    metavar := "HTTP_HOST", default := "0.0.0.0" },
  { name := "http-port", env := "INGEST_HTTP_PORT", about := "HTTP listen port"
    metavar := "HTTP_PORT_RAW", default := "8089" },
  { name := "udp-port", env := "INGEST_UDP_PORT", about := "Single UDP port for all ICE traffic"
    metavar := "UDP_PORT_RAW", default := "8443" },
  { name := "tcp-port", env := "INGEST_TCP_PORT", about := "ICE-TCP port"
    metavar := "TCP_PORT_RAW", default := "8443" },
  { name := "nat-public-ip", env := "INGEST_NAT_PUBLIC_IP", metavar := "NAT_PUBLIC_IP"
    about := "Public IP announced in host candidates (local interfaces when unset)" },
  { name := "turn-enable", env := "TURN_ENABLE", about := "Offer a TURN relay to peers"
    metavar := "TURN_ENABLE", default := "false", choices := ["true", "false"], check := truth },
  { name := "turn-url", env := "TURN_URL", metavar := "TURN_URL" },
  { name := "turn-username", env := "TURN_USERNAME", metavar := "TURN_USERNAME" },
  { name := "turn-password", env := "TURN_PASSWORD", metavar := "TURN_PASSWORD", secret := true },
  { name := "broadcaster-id", env := "INGEST_BROADCASTER_ID", metavar := "BROADCASTER_ID"
    about := "Broadcaster this ingest instance serves" },
  { name := "username", env := "INGEST_USERNAME", metavar := "USERNAME" },
  { name := "fail-fast", env := "INGEST_FAIL_FAST", metavar := "FAIL_FAST"
    about := "Stop the process when the ingest session ends"
    default := "false", choices := ["true", "false"], check := truth },
  { name := "ffmpeg-path", env := "INGEST_FFMPEG_PATH", about := "Transcoder binary"
    metavar := "FFMPEG_PATH", default := "ffmpeg" },
  { name := "hls-time", env := "INGEST_HLS_TIME", about := "HLS segment duration in seconds"
    metavar := "HLS_TIME", default := "4", check := numberBelow32 },
  { name := "hls-list-size", env := "INGEST_HLS_LIST_SIZE"
    about := "Segments kept in the HLS playlist"
    metavar := "HLS_LIST_SIZE", default := "8", check := numberBelow32 },
  { name := "hls-dir", env := "INGEST_HLS_DIR", metavar := "HLS_DIR"
    about := "Parent of the per-session HLS directories (system temp dir when unset)"
    check := fun v => if v.isEmpty then some .invalidValue else none },
  { name := "ice-gather-timeout-secs", env := "INGEST_ICE_GATHER_TIMEOUT_SECS"
    about := "Upper bound on ICE gathering before an answer is sent"
    metavar := "ICE_GATHER_TIMEOUT_SECS", default := "10"
    check := checked (below? UInt64.size) .valueValidation }]

def help : Flag := { name := "help", short := 'h', arity := .help, about := "Print help" }

/-- The variable that says where temporary files are, in place of the usual directory. -/
def tempVariable : String := "TMPDIR"

def ofParsed (p : Parsed) (env : List (String × String)) : Options where
  httpHost := (p.get? "http-host").getD "0.0.0.0"
  httpPort := (p.get? "http-port").getD "8089"
  udpPort := (p.get? "udp-port").getD "8443"
  tcpPort := (p.get? "tcp-port").getD "8443"
  natPublicIp := p.get? "nat-public-ip"
  turnEnable := ((p.get? "turn-enable").bind boolean?).getD false
  turnUrl := p.get? "turn-url"
  turnUsername := p.get? "turn-username"
  turnPassword := p.get? "turn-password"
  broadcasterId := p.get? "broadcaster-id"
  username := p.get? "username"
  failFast := ((p.get? "fail-fast").bind boolean?).getD false
  ffmpegPath := (p.get? "ffmpeg-path").getD "ffmpeg"
  hlsTime := ((p.get? "hls-time").bind (signedBelow? UInt32.size)).getD 4
  hlsListSize := ((p.get? "hls-list-size").bind (signedBelow? UInt32.size)).getD 8
  hlsDir := p.get? "hls-dir"
  gatherSeconds := ((p.get? "ice-gather-timeout-secs").bind (below? UInt64.size)).getD 10
  tempDir := (env.lookup tempVariable).getD "/tmp"

def parse (args : List String) (env : List (String × String)) : Except Refusal Options :=
  (Flags.parse (flags ++ [help]) args env).map fun p => ofParsed p env

/-! ## What follows from them -/

def port? (raw : String) : Option Nat := below? 65536 (trimSpace raw)

def defaultHttpPort : Nat := 8089

def defaultIcePort : Nat := 8443

def httpPortNumber (o : Options) : Nat := (port? o.httpPort).getD defaultHttpPort

def udpPortNumber (o : Options) : Nat := (port? o.udpPort).getD defaultIcePort

def tcpPortNumber (o : Options) : Nat := (port? o.tcpPort).getD defaultIcePort

/-- Where HTTP is served. -/
def httpAddress (o : Options) : Except String Endpoint :=
  match Ip.parse (trimSpace o.httpHost) with
  | some ip => .ok ⟨ip, o.httpPortNumber⟩
  | none => .error ("Invalid HTTP host " ++ o.httpHost ++ ": " ++ syntaxError)

/-- The relay, when enabled and given an address. -/
def turnServer (o : Options) : Option TurnServer :=
  if !o.turnEnable then none
  else (o.turnUrl.filter fun url => !isBlank url).map fun url =>
    ⟨[url], o.turnUsername.getD "", o.turnPassword.getD ""⟩

def turnServers (o : Options) : List TurnServer := o.turnServer.toList

/-- The address announced in place of those of the interfaces. -/
def publicIp (o : Options) : Option String := o.natPublicIp.filter fun ip => !isBlank ip

/-- Where HLS sessions have their directories. -/
def hlsBase (o : Options) : String := o.hlsDir.getD o.tempDir

/-- The name that the orchestrator goes by. -/
def name (o : Options) : String := o.broadcasterId.getD "ingest"

end Options

end Headend
