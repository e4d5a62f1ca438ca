import Headend.Media.Muxer

/-!
# Sinks

A sink takes packets one at a time and writes what comes of them to a pipe. Between two attempts it
keeps the move it could not make, so that a full pipe makes it wait and nothing else does.
-/

namespace Headend.Media

/-- What a stub writer answers. -/
inductive Reply where
  | ok
  | fail (e : Error)
  | crash
  deriving Repr, DecidableEq

inductive Writer where
  /-- Send packets on to the subscribers of a local track. -/
  | republish
  /-- Send every packet as one chunk. -/
  | forward
  | annexB (w : AnnexB)
  | muxer (w : Muxer)
  /-- Keep what comes in and answer from a list, whose last entry repeats. -/
  | stub (replies : List Reply) (seen : List Bytes)
  deriving Repr, DecidableEq

namespace Writer

/-- The reply that is due, and those that follow. -/
def nextReply : List Reply → Reply × List Reply
  | [] => (.ok, [])
  | [r] => (r, [r])
  | r :: rest => (r, rest)

def accept (w : Writer) (packet : Bytes) : Writer × Move :=
  match w with
  | republish => (w, match Rtp.Packet.parse packet with
    | .ok _ => .finish (.ok 0)
    | .error e => .finish (.error (.track e.message))
    | .crash => .crash)
  | forward => (w, .last packet packet.length)
  | annexB w =>
    let (w, move) := w.accept packet
    (annexB w, move)
  | muxer w =>
    let (w, move) := w.accept packet
    (muxer w, move)
  | stub replies seen =>
    let (reply, replies) := nextReply replies
    (stub replies (seen ++ [packet]), match reply with
      | .ok => .finish (.ok packet.length)
      | .fail e => .finish (.error e)
      | .crash => .crash)

def resume (w : Writer) : Writer × Move :=
  match w with
  | muxer w =>
    let (w, move) := w.resume
    (muxer w, move)
  | w => (w, .finish (.ok 0))

instance : PacketWriter Writer where
  accept := accept
  resume := resume

end Writer

/-! ## Pipes in use -/

/-- Pipes are named by their position. -/
abbrev Pipes := List Pipe

namespace Pipes

/-- A pipe that does not exist counts as closed. -/
def get (ps : Pipes) (k : Nat) : Pipe := ps[k]?.getD (Pipe.new 1).close

def update (ps : Pipes) (k : Nat) (f : Pipe → Pipe) : Pipes := ps.modify k f

end Pipes

/-! ## Sinks -/

structure Sink where
  writer : Writer
  /-- The pipe written to, unless the writer keeps everything to itself. -/
  target : Option Nat
  /-- What is to be done next for the packet in hand. -/
  move : Option Move

namespace Sink

def new (writer : Writer) (target : Option Nat := none) : Sink := ⟨writer, target, none⟩

inductive Progress where
  | working
  | done (result : Except Error Nat)
  | crashed

def start (s : Sink) (packet : Bytes) : Sink :=
  let (w, move) := s.writer.accept packet
  { s with writer := w, move := some move }

/-- The sink after a chunk was taken. -/
def proceed (s : Sink) : Sink :=
  let (w, move) := s.writer.resume
  { s with writer := w, move := some move }

def idle (s : Sink) : Sink := { s with move := none }

/-- Make the next move, unless it has to wait. -/
def advance (s : Sink) (pipes : Pipes) : Option (Sink × Pipes × Progress) :=
  let send (chunk : Bytes) (next : Sink) (progress : Progress) :=
    match s.target with
    | none => some (s.idle, pipes, .done (.error .pipeClosed))
    | some k =>
      match (pipes.get k).offer chunk with
      | .accepted _ p => some (next, pipes.set k p, progress)
      | .broken => some (s.idle, pipes, .done (.error .pipeClosed))
      | .wait => none
  match s.move with
  | none => none
  | some .crash => some (s.idle, pipes, .crashed)
  | some (.finish result) => some (s.idle, pipes, .done result)
  | some .again => some (s.proceed, pipes, .working)
  | some (.last chunk result) => send chunk s.idle (.done (.ok result))
  | some (.emit chunk) => send chunk s.proceed .working

/-- Let go of the pipe. -/
def drop (s : Sink) (pipes : Pipes) : Pipes :=
  match s.target with
  | some k => pipes.update k Pipe.dropWriter
  | none => pipes

end Sink

end Headend.Media
