import Headend.Sdp.Agreement
import Headend.Sdp.Transceiver
import Headend.Sdp.Transport

/-!
# Answers

The answer to an offer has a section for each one of the offer that can be told from the others and
says which way its media flow. A section for which no codec is agreed on is refused.

Of an answer only what follows from the offer is given; its addresses and credentials are those of
the transport.
-/

namespace Headend.Sdp

inductive Failure where
  | badOffer
  /-- A track that is to be sent in a codec the offer does not have. -/
  | unsupportedTrack
  deriving Repr, DecidableEq

/-- The names that stand with the session as those of a group, and with them its purpose. -/
def bundled (d : Description) : List String :=
  words ((attribute? d.attributes "group").join.getD "")

/-! ## Sections -/

/-- The lines of a section that is not refused. Outside of the bundle it has no port. -/
def sectionOf (d : Description) (kind protocol formats mid : String) (codings : List Coding)
    (direction : Direction) : List String :=
  let port := if (bundled d).contains mid then "9" else "0"
  [s!"m={kind} {port} {protocol} {formats}", "a=mid:" ++ mid] ++ codings.flatMap Coding.lines
    ++ ["a=" ++ direction.name]

def mediaProtocol : String := "UDP/TLS/RTP/SAVPF"

def refused (kind : MediaKind) : List String := [s!"m={kind.name} 0 {mediaProtocol} 0"]

/-- A track can be sent in a coding of the same codec. -/
def Transceiver.canSend (t : Transceiver) (codings : List Coding) : Bool :=
  t.track.all fun track => codings.any fun c => upperCase c.mime == upperCase track.mime

/-- The section of a transceiver, for a direction that was offered. -/
def Transceiver.section (t : Transceiver) (d : Description) (codings : List Coding) (mid : String)
    (offered : Direction) : Except Failure (List String) :=
  let formats := " ".intercalate (codings.map fun c => toString c.payloadType)
  if !t.canSend codings then .error .unsupportedTrack
  else if codings.isEmpty then .ok (refused t.kind)
  else .ok (sectionOf d t.kind.name mediaProtocol formats mid codings (t.direction.answer offered))

def dataSection (d : Description) (mid : String) : List String :=
  sectionOf d "application" "UDP/DTLS/SCTP" "webrtc-datachannel" mid [] .both

/-- The sections of the answer. Each one takes its transceiver away from those after it. -/
def sectionsOf (d : Description) (a : Agreement) : List Transceiver → List Section →
    Except Failure (List (List String))
  | _, [] => .ok []
  | ts, s :: rest =>
    match nameOf s, Request.ofSection? s with
    | none, _ => sectionsOf d a ts rest
    | some mid, none => do
      let more ← sectionsOf d a ts rest
      return if s.kind == "application" then dataSection d mid :: more else more
    | some mid, some r => do
      match ts.find? fun t => t.mid == some mid with
      | none => sectionsOf d a ts rest
      | some t =>
        let lines ← t.section d (a.codings t.kind) mid r.offered
        return lines :: (← sectionsOf d a (ts.eraseP fun t => t.mid == some mid) rest)

/-! ## The whole -/

/-- What an offer settles, if it can be answered at all. -/
def agreement? (d : Description) : Option Agreement :=
  if isReachable d && d.sections.all fun s => nameOf s != some "" then Agreement.ofOffer? d
  else none

/-- Answer an offer, with the transceivers that are there. -/
def answer (offer : String) (ts : List Transceiver) : Except Failure (List (List String)) :=
  match (parse offer).bind fun d => (agreement? d).map (d, ·) with
  | none => .error .badOffer
  | some (d, a) => sectionsOf d a (Transceiver.meetAll ts d) d.sections

end Headend.Sdp
