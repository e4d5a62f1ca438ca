/-!
# Failed requests

A fault is why a request failed. The log gets its message; the client gets a status and a short
description that does not give the cause away.
-/

namespace Headend.Web

inductive Fault where
  | badOffer (cause : String)
  | peerConnection (cause : String)
  | negotiation (cause : String)
  | allocation (cause : String)
  | noActiveStream
  | alreadyAssigned
  | notFound (what : String)
  | badRequest (cause : String)
  | internal (cause : String)
  | io (cause : String)
  deriving Repr, DecidableEq

namespace Fault

def message : Fault → String
  | badOffer c => "Bad offer: " ++ c
  | peerConnection c => "Peer connection error: " ++ c
  | negotiation c => "Negotiation failed: " ++ c
  | allocation c => "Stream allocation failed: " ++ c
  | noActiveStream => "No active stream"
  | alreadyAssigned => "Control already assigned"
  | notFound c => "Not found: " ++ c
  | badRequest c => "Bad request: " ++ c
  | internal c => "Internal error: " ++ c
  | io c => "IO error: " ++ c

def status : Fault → Nat
  | noActiveStream | alreadyAssigned => 409
  | notFound _ => 404
  | badRequest _ => 400
  | badOffer _ | peerConnection _ | negotiation _ | allocation _ | internal _ | io _ => 500

/-- What the client is told. -/
def publicMessage : Fault → String
  | badOffer _ => "bad offer"
  | peerConnection _ => "failed to create peer connection"
  | negotiation _ => "failed to negotiate session"
  | allocation _ => "failed to allocate stream"
  | noActiveStream => "no active stream"
  | alreadyAssigned => "control already assigned"
  | notFound _ => "not found"
  | badRequest _ => "bad request"
  | internal _ | io _ => "internal error"

/-- The media type of the description. -/
def contentType : String := "text/plain; charset=utf-8"

end Fault

end Headend.Web
