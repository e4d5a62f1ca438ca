import Headend.Net.Address

/-!
# Listening

Which endpoints a host lets its programs bind. UDP ports may be shared; a TCP port may not be
listened on twice where the addresses overlap. Port 0 asks for a free port. The host has all IPv4
addresses, and of IPv6 only the unspecified one.
-/

namespace Headend.Net

inductive Protocol where
  | tcp
  | udp
  deriving Repr, DecidableEq

inductive BindError where
  | inUse
  | notAvailable
  deriving Repr, DecidableEq

/-- What the system says. -/
def BindError.message : BindError → String
  | inUse => "Address already in use (os error 98)"
  | notAvailable => "Cannot assign requested address (os error 99)"

structure Sockets where
  bound : List (Protocol × Endpoint)
  deriving Repr, DecidableEq

namespace Sockets

def none : Sockets := ⟨[]⟩

def unspecifiedV4 : Ip := .v4 0 0 0 0

def unspecifiedV6 : Ip := .v6 (List.replicate 8 0)

def isUnspecified (ip : Ip) : Bool := ip == unspecifiedV4 || ip == unspecifiedV6

/-- Whether one of two addresses stands for both. The two families are apart. -/
def overlap (a b : Ip) : Bool :=
  a.isV6 == b.isV6 && (a == b || isUnspecified a || isUnspecified b)

/-- The first of the ports that are handed out on request. -/
def ephemeral : Nat := 32768

/-- A port that no socket has. -/
def freePort (s : Sockets) : Nat := s.bound.foldl (fun n b => max n (b.2.port + 1)) ephemeral

def bind (s : Sockets) (proto : Protocol) (e : Endpoint) : Except BindError (Sockets × Endpoint) :=
  if e.ip.isV6 && !isUnspecified e.ip then .error .notAvailable
  else
    let e := if e.port = 0 then { e with port := s.freePort } else e
    if proto = .tcp && s.bound.any fun b =>
        b.1 == .tcp && b.2.port == e.port && overlap b.2.ip e.ip then .error .inUse
    else .ok (⟨s.bound ++ [(proto, e)]⟩, e)

end Sockets

end Headend.Net
