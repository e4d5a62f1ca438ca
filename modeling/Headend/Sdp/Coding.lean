import Headend.Codec
import Headend.Sdp.Description
import Headend.Text.Case

/-!
# Codings

A section lists payload types, and its attributes tell which codec each of them stands for. Several
attributes may do so together, and what the first one says is not changed by the others.
-/

namespace Headend.Sdp

structure Coding where
  payloadType : Nat
  /-- The media type: the kind of the section and the name of the codec. -/
  mime : String
  clockRate : Nat
  /-- Zero if the section does not say. -/
  channels : Nat
  parameters : String
  deriving Repr, DecidableEq

/-! ## Reading -/

/-- The payload type that an attribute is about. -/
def payloadOf? (s : String) : Option Nat := below? 256 s

/-- What attributes say about a payload type; empty text and zero where they say nothing. -/
structure Mapping where
  name : String
  clockRate : Nat
  channels : String
  parameters : String
  deriving Repr, DecidableEq

namespace Mapping

def empty : Mapping := ⟨"", 0, "", ""⟩

/-- What two attributes say, of which the first one counts where both say something. -/
def merge (m n : Mapping) : Mapping where
  name := if m.name.isEmpty then n.name else m.name
  clockRate := if m.clockRate = 0 then n.clockRate else m.clockRate
  channels := if m.channels.isEmpty then n.channels else m.channels
  parameters := if m.parameters.isEmpty then n.parameters else m.parameters

/-- A codec, its clock rate and its channels, between slashes. -/
def ofCodec? (s : String) : Option Mapping :=
  match splitParts '/' s with
  | [] => none
  | [name] => some { empty with name := name }
  | name :: clock :: rest => (below? UInt32.size clock).map fun clock =>
      { empty with name := name, clockRate := clock, channels := rest.headD "" }

/-- The payload type after the key of an attribute. -/
def about? (head : String) : Option Nat :=
  match splitParts ':' head with
  | [_, n] => payloadOf? n
  | _ => none

/-- What an attribute says, and about which payload type. -/
def ofAttribute? (a : Attribute) : Option (Nat × Mapping) := do
  let text := a.key ++ ":" ++ (← a.value)
  match a.key, words text, splitFirst ' ' text with
  | "rtpmap", [head, codec], _ => return (← about? head, ← ofCodec? codec)
  | "fmtp", [head, parameters], _ => return (← about? head, { empty with parameters := parameters })
  | "rtcp-fb", _, (head, some _) => return (← about? head, empty)
  | _, _, _ => none

/-- What is said about a payload type, if it is known at all. -/
def find? (known : List (Nat × Mapping)) (pt : Nat) : Option Mapping :=
  match known.filterMap fun (n, m) => if n = pt then some m else none with
  | [] => none
  | m :: ms => some (ms.foldl merge m)

end Mapping

/-- The codings of a list of payload types. Type 0 needs no mapping, and then counts for nothing. -/
def codingsOf (kind : String) (known : List (Nat × Mapping)) : List String → Option (List Coding)
  | [] => some []
  | format :: rest => do
    let pt ← payloadOf? format
    let more ← codingsOf kind known rest
    match Mapping.find? known pt with
    | some m =>
      return ⟨pt, kind ++ "/" ++ m.name, m.clockRate, (below? 65536 m.channels).getD 0, m.parameters⟩
        :: more
    | none => if pt = 0 then return more else none

/-- What a section offers. -/
def Section.codings? (s : Section) : Option (List Coding) :=
  codingsOf s.kind (s.attributes.filterMap Mapping.ofAttribute?) s.formats

/-! ## Parameters -/

namespace Coding

/-- Parameters by key, in lower case. -/
def table (c : Coding) : List (String × String) :=
  (splitParts ';' c.parameters).map fun p =>
    let (key, value) := splitFirst '=' (trimSpace p)
    (lowerCase key, value.getD "")

/-- The last parameter of that key. -/
def parameter? (c : Coding) (key : String) : Option String := c.table.reverse.lookup key

/-! ## Writing -/

def name (c : Coding) : String := (splitFirst '/' c.mime).2.getD ""

def lines (c : Coding) : List String :=
  let channels := if c.channels = 0 then "" else s!"/{c.channels}"
  s!"a=rtpmap:{c.payloadType} {c.name}/{c.clockRate}{channels}"
    :: if c.parameters.isEmpty then [] else [s!"a=fmtp:{c.payloadType} {c.parameters}"]

end Coding

end Headend.Sdp
