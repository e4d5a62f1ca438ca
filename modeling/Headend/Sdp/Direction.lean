import Headend.Sdp.Description

/-!
# Directions

Which way media flow, as one side sees it.
-/

namespace Headend.Sdp

structure Direction where
  sends : Bool
  receives : Bool
  deriving Repr, DecidableEq

namespace Direction

def sendOnly : Direction := ⟨true, false⟩

def receiveOnly : Direction := ⟨false, true⟩

def both : Direction := ⟨true, true⟩

def inactive : Direction := ⟨false, false⟩

def all : List Direction := [sendOnly, receiveOnly, both, inactive]

def name (d : Direction) : String :=
  match d.sends, d.receives with
  | true, true => "sendrecv"
  | true, false => "sendonly"
  | false, true => "recvonly"
  | false, false => "inactive"

def ofName? (s : String) : Option Direction := all.find? fun d => d.name == s

theorem ofName?_name (d : Direction) : ofName? d.name = some d := by
  obtain ⟨s, r⟩ := d
  cases s <;> cases r <;> decide

/-- How the other side sees it. -/
def reverse (d : Direction) : Direction := ⟨d.receives, d.sends⟩

/-- What both allow. -/
def meet (d e : Direction) : Direction := ⟨d.sends && e.sends, d.receives && e.receives⟩

/-- Our direction for one that was offered, where `own` is what we would have. An offer of both ways
leaves it to us. -/
def answer (own offered : Direction) : Direction :=
  if offered = both then own else offered.reverse.meet own

/-- Directions of ours that suit one that was offered, the best one first. -/
def suited (offered : Direction) : List Direction :=
  (if offered.sends then [receiveOnly] else if offered.receives then [sendOnly] else [])
    ++ (if offered.receives then [both] else [])

end Direction

/-- The direction of a section. -/
def directionOf (s : Section) : Option Direction :=
  s.attributes.findSome? fun a => Direction.ofName? a.key

end Headend.Sdp
