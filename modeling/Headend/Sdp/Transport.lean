import Headend.Net.Address
import Headend.Sdp.Description

/-!
# Transports

What a description says about the way to its peer: the credentials and candidates of ICE and the
fingerprint of the certificate. They may stand with the session or with a section, but have to be
the same wherever they do. Sections that are inactive give credentials only if no other place does,
and their candidates do not count.
-/

namespace Headend.Sdp

/-- What an attribute of that key says of the session. -/
def ofSession? (d : Description) (key : String) : Option String := (attribute? d.attributes key).join

/-- What an attribute of that key says in some sections. -/
def inSections (ss : List Section) (key : String) : List String :=
  ss.filterMap fun s => (attribute? s.attributes key).join

/-- The first of some values, if they are all the same. -/
def common? (vs : List String) : Option String :=
  vs.head?.filter fun v => vs.all (· == v)

def isInactive (s : Section) : Bool := (attribute? s.attributes "inactive").isSome

/-- A credential of ICE. -/
def credential? (d : Description) (key : String) : Option String :=
  match (ofSession? d key).toList ++ inSections (d.sections.filter (!isInactive ·)) key with
  | [] => (inSections (d.sections.filter isInactive) key).head?
  | vs => common? vs

def fingerprint? (d : Description) : Option String :=
  common? ((ofSession? d "fingerprint").toList ++ inSections d.sections "fingerprint")

/-- The name of a hash function and the hash. -/
def isFingerprint (s : String) : Bool := (splitParts ' ' s).length == 2

def candidateTypes : List String := ["host", "srflx", "prflx", "relay"]

/-- What may follow the type of a candidate. -/
def isRelated : List String → Bool
  | "raddr" :: rest => 3 ≤ rest.length && (rest[2]?).any (isNumber 65536)
  | "tcptype" :: rest => !rest.isEmpty
  | _ => true

/-- An address with the network that it is used in. -/
def isNetworkAddress (network address : String) : Bool :=
  let network := network.map Char.toLower
  (network.startsWith "udp" || network.startsWith "tcp") && (Net.Ip.parse address).isSome

/-- A candidate. A host may have a name on the local network instead of an address. -/
def isCandidate (s : String) : Bool :=
  match words s with
  | _ :: component :: network :: priority :: address :: port :: _ :: kind :: rest =>
    isNumber 65536 component && isNumber UInt32.size priority && isNumber 65536 port
      && candidateTypes.contains kind
      && ((kind == "host" && address.endsWith ".local") || isNetworkAddress network address)
      && isRelated rest
  | _ => false

def candidates (d : Description) : List String :=
  (d.sections.filter (!isInactive ·)).flatMap fun s => s.attributes.filterMap fun a =>
    if a.key == "candidate" then a.value else none

/-- Whether the peer can be reached and known again. -/
def isReachable (d : Description) : Bool :=
  (credential? d "ice-ufrag").isSome && (credential? d "ice-pwd").isSome
    && (fingerprint? d).any isFingerprint && (candidates d).all isCandidate

end Headend.Sdp
