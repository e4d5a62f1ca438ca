import Headend.Bytes
import Headend.Text.Split

/-!
# Requests

A request is made of a method, a target, headers and a body. What cannot be one of them is refused
before there is a request.
-/

namespace Headend.Web

structure Request where
  method : String
  /-- The path of the target, still percent-encoded. -/
  path : String
  body : Bytes
  deriving Repr, DecidableEq

/-- Characters of methods and of the names of headers. -/
def isTokenChar (c : Char) : Bool := c.isAlphanum || "!#$%&'*+-.^_`|~".contains c

def isToken (s : String) : Bool := s != "" && s.toList.all isTokenChar

def isHeaderChar (c : Char) : Bool := c == '\t' || (' ' ≤ c && c.toNat != 0x7f)

def isHeader (h : String × String) : Bool := isToken h.1 && h.2.toList.all isHeaderChar

/-! ## Targets -/

def isPathChar (c : Char) : Bool :=
  '!' ≤ c && !(['#', '<', '>', '?', '\x60', '\x7f'].contains c)

def isQueryChar (c : Char) : Bool :=
  '!' ≤ c && !(['"', '#', '<', '>', '\x7f'].contains c)

/-- The path of a target that begins with it. A query or a fragment may follow. -/
def pathOf (cs : List Char) : Option String :=
  let (path, rest) := cs.span isPathChar
  let rest := match rest with
    | '?' :: query => query.dropWhile isQueryChar
    | rest => rest
  match rest with
  | [] | '#' :: _ => some (String.ofList path)
  | _ => none

/-- What has been read of an authority: a user, a host and a port. -/
structure Authority where
  /-- Colons since the user or an address in brackets. -/
  colons : Nat
  opened : Bool
  closed : Bool
  /-- A percent sign that does not belong to the user or to an address in brackets. -/
  percent : Bool
  /-- Whether the user has just ended, so that a host has to follow. -/
  hostDue : Bool
  deriving Repr, DecidableEq

namespace Authority

def start : Authority := ⟨0, false, false, false, false⟩

def isPlainChar (c : Char) : Bool := c.isAlphanum || "-._~!$&'()*+,;=".contains c

/-- Most colons in a row of them. -/
def colonLimit : Nat := 8

def next (a : Authority) (c : Char) : Option Authority :=
  let a := { a with hostDue := false }
  match c with
  | ':' => if a.colons < colonLimit then some { a with colons := a.colons + 1 } else none
  | '[' => if a.percent || a.opened then none else some { a with opened := true }
  | ']' =>
    if a.opened && !a.closed then some { a with closed := true, colons := 0, percent := false }
    else none
  | '@' => some { a with colons := 0, percent := false, hostDue := true }
  | '%' => some { a with percent := true }
  | c => if isPlainChar c then some a else none

/-- Nothing is missing at the end. -/
def isComplete (a : Authority) : Bool :=
  a.opened == a.closed && a.colons ≤ 1 && !a.hostDue && !a.percent

end Authority

def isAuthority (cs : List Char) : Bool :=
  !cs.isEmpty && (cs.foldlM Authority.next .start).any Authority.isComplete

def isSchemeChar (c : Char) : Bool := c.isAlphanum || "+-.~".contains c

/-- The longest scheme. -/
def schemeLimit : Nat := 64

/-- What follows the scheme of a target that has one. The scheme may be empty. -/
def afterScheme? (cs : List Char) : Option (List Char) :=
  let (scheme, rest) := cs.span isSchemeChar
  match rest with
  | ':' :: '/' :: '/' :: rest => if scheme.length ≤ schemeLimit then some rest else none
  | _ => none

/-- The path of a target: one alone, or one after a scheme and a host. A host by itself has none. -/
def path? (target : String) : Option String :=
  match target.toList with
  | [] => none
  | ['*'] => some "*"
  | '/' :: cs => pathOf ('/' :: cs)
  | cs =>
    match afterScheme? cs with
    | none => if isAuthority cs then some "" else none
    | some rest =>
      let (host, rest) := rest.span fun c => c != '/' && c != '?' && c != '#'
      if !isAuthority host then none
      else if rest.head? = some '/' then pathOf rest else pathOf ('/' :: rest)

/-- The longest target. -/
def targetLimit : Nat := 65534

def request? (method target : String) (headers : List (String × String)) (body : Bytes) :
    Option Request :=
  if isToken method && headers.all isHeader && target.utf8ByteSize ≤ targetLimit then
    (path? target).map fun path => ⟨method, path, body⟩
  else none

end Headend.Web
