import Headend.Net.Url
import Headend.Text.Number
import Headend.Text.Space
import Headend.Text.Split

/-!
# Session descriptions

A description is made of lines `x=value`, first those that concern the whole session and then a
section for each medium. The kinds of lines have to come in order, and a line of any kind has to be
well formed. Empty lines count for nothing.
-/

namespace Headend.Sdp

structure Attribute where
  key : String
  value : Option String
  deriving Repr, DecidableEq

structure Section where
  kind : String
  formats : List String
  attributes : List Attribute
  deriving Repr, DecidableEq

structure Description where
  attributes : List Attribute
  sections : List Section
  deriving Repr, DecidableEq

/-- The first attribute with that key, and its value if it has one. -/
def attribute? (as : List Attribute) (key : String) : Option (Option String) :=
  (as.find? fun a => a.key == key).map (·.value)

/-! ## Well-formed lines -/

def isNumber (bound : Nat) (s : String) : Bool := (below? bound s).isSome

/-- The last two words of an address. -/
def isInternet (network family : String) : Bool :=
  network == "IN" && (family == "IP4" || family == "IP6")

def isOrigin (value : String) : Bool :=
  match words value with
  | [_, id, version, network, family, _] =>
    isNumber UInt64.size id && isNumber UInt64.size version && isInternet network family
  | _ => false

def isConnection (value : String) : Bool :=
  match words value with
  | network :: family :: _ => isInternet network family
  | _ => false

def isBandwidth (value : String) : Bool :=
  match splitParts ':' value with
  | [kind, n] =>
    (kind.startsWith "X-" || ["CT", "AS", "TIAS", "RS", "RR"].contains kind) && isNumber UInt64.size n
  | _ => false

def isTiming (value : String) : Bool :=
  match words value with
  | start :: stop :: _ => isNumber UInt64.size start && isNumber UInt64.size stop
  | _ => false

/-- Seconds in the unit that a letter stands for. -/
def unit? (c : Char) : Option Nat := [('d', 86400), ('h', 3600), ('m', 60), ('s', 1)].lookup c

/-- A signed number in 64 bits, of seconds or of the unit that the letter after it stands for. -/
def isDuration (s : String) : Bool :=
  let (text, unit) := match s.toList.getLast?.bind unit? with
    | some unit => (s.toList.dropLast, unit)
    | none => (s.toList, 1)
  match text with
  | '-' :: cs => (digits? cs).any fun n => n * unit ≤ 1 <<< 63
  | '+' :: cs | cs => (digits? cs).any fun n => n * unit < 1 <<< 63

def isRepeat (value : String) : Bool :=
  3 ≤ (words value).length && (words value).all isDuration

/-- Pairs of a time and a shift. -/
def areShifts : List String → Bool
  | [] => true
  | time :: shift :: rest => isNumber UInt64.size time && isDuration shift && areShifts rest
  | [_] => false

def mediaKinds : List String := ["audio", "video", "text", "application", "message", "image"]

def protocols : List String :=
  ["UDP", "RTP", "AVP", "SAVP", "SAVPF", "TLS", "DTLS", "SCTP", "AVPF", "udptl"]

/-- The number of ports from one on, which may be negative. -/
def isPortCount (s : String) : Bool :=
  match s.toList with
  | '-' :: cs => (digits? cs).any (· ≤ 1 <<< 31)
  | _ => isNumber (1 <<< 31) s

/-- A port, possibly with the number of ports from there. What follows after another slash does not
count. -/
def isPort (s : String) : Bool :=
  match splitParts '/' s with
  | [] => false
  | [port] => (signedBelow? 65537 port).isSome
  | port :: count :: _ => (signedBelow? 65537 port).isSome && isPortCount count

/-- The section that begins with a line. -/
def section? (value : String) : Option Section :=
  match words value with
  | kind :: port :: protocol :: format :: formats =>
    if mediaKinds.contains kind && isPort port && (splitParts '/' protocol).all protocols.contains then
      some ⟨kind, format :: formats, []⟩
    else none
  | _ => none

/-- What the value of a line has to look like. -/
def isWellFormed (key : Char) (value : String) : Bool :=
  match key with
  | 'v' => below? UInt32.size value == some 0
  | 'o' => isOrigin value
  | 'u' => Net.isUrl value
  | 'c' => isConnection value
  | 'b' => isBandwidth value
  | 't' => isTiming value
  | 'r' => isRepeat value
  | 'z' => areShifts (words value)
  | _ => true

/-! ## The order of lines -/

/-- The kinds of lines that may follow a line of the session, or begin it. -/
def followers : Option Char → List Char
  | none => ['v']
  | some 'v' => ['o']
  | some 'o' => ['s']
  | some 's' => "iuepcbt".toList
  | some 'i' => "uepcbt".toList
  | some 'u' => "epcbt".toList
  | some 'e' => "pcbt".toList
  | some 'p' => "cbt".toList
  | some 'c' | some 'b' => ['b', 't']
  | some 't' | some 'r' => "trzkam".toList
  | some 'z' => "kam".toList
  | _ => ['a', 'm']

/-- The kinds of lines that may follow a line of a section, among them the one that begins the
next. -/
def sectionFollowers (last : Char) : List Char :=
  if last == 'c' || last == 'b' then "akbim".toList else "akbcim".toList

/-- What has been read so far, the latest first. -/
structure Draft where
  /-- The kind of the last line. -/
  last : Option Char
  attributes : List Attribute
  sections : List Section
  deriving Repr, DecidableEq

namespace Draft

def empty : Draft := ⟨none, [], []⟩

/-- The kinds of lines that may come next. -/
def expected (d : Draft) : List Char :=
  match d.sections, d.last with
  | _ :: _, some last => sectionFollowers last
  | _, last => followers last

def attributeOf (value : String) : Attribute :=
  let (key, value) := splitFirst ':' value
  ⟨key, value⟩

/-- Add an attribute to what was begun last. -/
def addAttribute (d : Draft) (a : Attribute) : Draft :=
  match d.sections with
  | [] => { d with attributes := a :: d.attributes }
  | s :: rest => { d with sections := { s with attributes := a :: s.attributes } :: rest }

def line (d : Draft) (text : List Char) : Option Draft :=
  match text.dropWhile (· = '\r') with
  | [] => some d
  | key :: '=' :: value =>
    let value := trimSpace (String.ofList value)
    if !d.expected.contains key || !isWellFormed key value then none
    else
      let d := { d with last := key }
      match key with
      | 'a' => some (d.addAttribute (attributeOf value))
      | 'm' => (section? value).map fun s => { d with sections := s :: d.sections }
      | _ => some d
  | _ => none

/-- A description is complete once it says when the session is. -/
def finish (d : Draft) : Option Description :=
  if d.expected.contains 'm' then
    some ⟨d.attributes.reverse,
      d.sections.reverse.map fun s => { s with attributes := s.attributes.reverse }⟩
  else none

end Draft

def parse (text : String) : Option Description :=
  ((partsFrom '\n' [] text.toList).foldlM Draft.line .empty).bind Draft.finish

end Headend.Sdp
