import Headend.Net.Address
import Headend.Net.Domain
import Headend.Text.Percent
import Headend.Text.Utf8

/-!
# URLs

Which texts are URLs. Few things can be wrong with one: it has to begin with a scheme, and where it
names a host that host has to be one. Controls and spaces around it do not count, and neither do
tabs and line breaks in it.
-/

namespace Headend.Net.Url

/-! ## Hosts -/

/-- A number in an IPv4 address: decimal, octal after a zero, or hexadecimal after `0x`. A value
that is none counts as too large. -/
def ipv4Number? (label : List Char) : Option Nat :=
  let read (radix : Nat) (cs : List Char) : Option Nat :=
    (cs.mapM (digitValue radix)).map fun ds => ds.foldl (fun n d => n * radix + d) 0
  match label with
  | [] => none
  | '0' :: 'x' :: cs | '0' :: 'X' :: cs => read 16 cs
  | '0' :: c :: cs => read 8 (c :: cs)
  | cs => read 10 cs

/-- The labels of a name, without the empty one after a stop at its end. -/
def withoutRoot (labels : List (List Char)) : List (List Char) :=
  if labels.length != 1 && labels.getLast? == some [] then labels.dropLast else labels

/-- Whether a name is meant to be an IPv4 address. -/
def endsInNumber (labels : List (List Char)) : Bool :=
  (withoutRoot labels).getLast?.any fun l =>
    (!l.isEmpty && l.all Char.isDigit) || (ipv4Number? l).isSome

/-- All numbers but the last stand for one byte, and the last one for the rest. -/
def isIpv4 (labels : List (List Char)) : Bool :=
  let labels := withoutRoot labels
  match labels.mapM ipv4Number? with
  | none => false
  | some ns => ns.length ≤ 4 && ns.dropLast.all (· < 256)
    && ns.getLast?.any (· < 1 <<< (8 * (5 - ns.length)))

/-- The address in brackets. -/
def isBracketed (host : List Char) : Bool :=
  host.getLast? == some ']' && (whole readV6 (String.ofList (host.tail.dropLast))).isSome

/-- A host that has to be a name or an address. -/
def isHost (host : List Char) : Bool :=
  if host.head? == some '[' then isBracketed host else
  match Utf8.decode (Percent.decode (Utf8.encode (String.ofList host))) with
  | .error _ => false
  | .ok name =>
    match Domain.labels? name with
    | none => false
    | some labels =>
      labels != [[]] && (!endsInNumber labels || isIpv4 labels)

/-- A host that means something to the scheme alone. -/
def isOpaqueHost (host : List Char) : Bool :=
  if host.head? == some '[' then isBracketed host
  else !host.any ("\x00\t\n\r #/:<>?@[\\]^|".contains ·)

/-- A host and what follows it: a colon outside of brackets, if there is one. -/
def splitHost : (inside : Bool) → List Char → List Char × List Char
  | _, [] => ([], [])
  | inside, c :: cs =>
    if c == ':' && !inside then ([], c :: cs)
    else
      let (host, rest) := splitHost (c == '[' || (inside && c != ']')) cs
      (c :: host, rest)

/-! ## Authorities -/

/-- A user, a host and a port. The host of a special scheme cannot be missing. -/
structure Authority where
  /-- Whether there is a user or a password. -/
  user : Bool
  host : List Char
  /-- The port with its colon. -/
  port : List Char
  deriving Repr, DecidableEq

namespace Authority

/-- The parts of an authority. Nothing but an end of the text may follow when it is an at sign
alone. -/
def ofChars? (cs rest : List Char) : Option Authority :=
  let host := (cs.reverse.takeWhile (· != '@')).reverse
  let (name, port) := splitHost false host
  if host.length == cs.length then some ⟨false, name, port⟩
  else
    let user := cs.take (cs.length - host.length - 1)
    if user.isEmpty && host.isEmpty && !rest.isEmpty then none
    else some ⟨!user.isEmpty && user != [':'], name, port⟩

/-- A port ends the authority, or a backslash does. -/
def isPort : List Char → Bool
  | ':' :: cs =>
    let (digits, rest) := cs.span Char.isDigit
    (rest.isEmpty || rest.head? == some '\\')
      && digits.foldl (fun n c => 10 * n + (c.toNat - 48)) 0 < 65536
  | _ => true

def isValid (special : Bool) (a : Authority) : Bool :=
  (if special then !a.host.isEmpty && isHost a.host else isOpaqueHost a.host)
    && !(a.host.isEmpty && (a.user || !a.port.isEmpty)) && isPort a.port

end Authority

def isSlash (c : Char) : Bool := c == '/' || c == '\\'

/-- What comes after two slashes. -/
def hasAuthority (special : Bool) (cs : List Char) : Bool :=
  let (authority, rest) := cs.span fun c =>
    !(c == '/' || c == '?' || c == '#' || (special && c == '\\'))
  (Authority.ofChars? authority rest).any (·.isValid special)

/-- What comes after two slashes in the URL of a file. -/
def hasFileHost (cs : List Char) : Bool :=
  match cs.takeWhile fun c => !(isSlash c || c == '?' || c == '#') with
  | [] => true
  | [drive, mark] => (drive.isAlpha && (mark == ':' || mark == '|')) || isHost [drive, mark]
  | host => isHost host

/-! ## The whole -/

def specialSchemes : List String := ["http", "https", "ws", "wss", "ftp"]

/-- A scheme in lower case, and what follows its colon. -/
def scheme? (cs : List Char) : Option (String × List Char) :=
  match cs.span fun c => c.isAlphanum || "+-.".contains c with
  | (c :: scheme, ':' :: rest) =>
    if c.isAlpha then some (String.ofList ((c :: scheme).map Char.toLower), rest) else none
  | _ => none

/-- The characters that count. -/
def significant (s : String) : List Char :=
  let inner := ((s.toList.dropWhile (· ≤ ' ')).reverse.dropWhile (· ≤ ' ')).reverse
  inner.filter fun c => c != '\t' && c != '\n' && c != '\r'

end Url

/-- Whether a text is a URL. -/
def isUrl (s : String) : Bool :=
  match Url.scheme? (Url.significant s) with
  | none => false
  | some (scheme, rest) =>
    if scheme == "file" then
      match rest with
      | c :: d :: cs => !(Url.isSlash c && Url.isSlash d) || Url.hasFileHost cs
      | _ => true
    else if Url.specialSchemes.contains scheme then
      Url.hasAuthority true (rest.dropWhile Url.isSlash)
    else
      match rest with
      | '/' :: '/' :: cs => Url.hasAuthority false cs
      | _ => true

end Headend.Net
