import Headend.Bytes

/-!
# Opus payloads

Each packet carries one frame, unchanged.
-/

namespace Headend.Codec.Opus

def clockRate : Nat := 48000

/-- The frame in a packet. A packet without one is refused. -/
def depacketize (payload : Bytes) : Option Bytes :=
  if payload.isEmpty then none else some payload

end Headend.Codec.Opus
