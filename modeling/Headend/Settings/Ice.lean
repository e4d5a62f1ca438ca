/-!
# ICE servers

The STUN and TURN servers that peers are told to use.
-/

namespace Headend

structure TurnServer where
  urls : List String
  username : String
  credential : String
  deriving Repr, DecidableEq

/-- A server as a peer connection gets it. STUN servers have no credentials. -/
structure IceServer where
  urls : List String
  username : String
  credential : String
  deriving Repr, DecidableEq

/-- One server for each STUN address, then the TURN servers; those without credentials are useless
and left out. -/
def iceServers (stun : List String) (turn : List TurnServer) : List IceServer :=
  (stun.map fun url => ⟨[url], "", ""⟩)
    ++ (turn.filter fun t => t.username != "" && t.credential != "").map fun t =>
      ⟨t.urls, t.username, t.credential⟩

end Headend
