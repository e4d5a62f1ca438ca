/-!
# Media errors

What can go wrong between a packet source and a byte sink. An error is terminal if the loop that
meets it has to stop; after any other one only the packet in hand is lost.
-/

namespace Headend.Media

/-- Kinds of input/output failures. -/
inductive IoKind where
  | brokenPipe
  | unexpectedEof
  | connectionReset
  | wouldBlock
  | notFound
  | interrupted
  | other
  deriving Repr, DecidableEq

inductive Error where
  | endOfStream
  | pipeClosed
  | invalidPacket (reason : String)
  | emptySample
  /-- Too little input so far to begin the output. -/
  | notReady
  | depacketize (reason : String)
  | track (reason : String)
  | io (kind : IoKind) (text : String)
  deriving Repr, DecidableEq

namespace Error

def message : Error → String
  | endOfStream => "end of stream"
  | pipeClosed => "pipe closed"
  | invalidPacket reason => s!"invalid RTP packet: {reason}"
  | emptySample => "sample has no data"
  | notReady => "writer not ready"
  | depacketize reason => s!"depacketize failed: {reason}"
  | track reason => s!"track error: {reason}"
  | io _ text => s!"IO error: {text}"

def isTerminal : Error → Bool
  | endOfStream | pipeClosed => true
  | io kind _ => kind == .brokenPipe || kind == .unexpectedEof
  | _ => false

end Error

end Headend.Media
