import Headend.Net.Url
import Headend.Sdp.Coding
import Headend.Sdp.Direction

/-!
# Agreements

Which of the codings that a section offers are used. A coding of ours fits one that is offered
exactly if their parameters do not contradict each other, and in part if only the codecs are the
same; codings that fit in part are used when no other does. The first section of a kind decides for
all sections of that kind.
-/

namespace Headend.Sdp

/-- What we can do, by kind. -/
def ownCodings : MediaKind → List Coding
  | .audio => [⟨111, "audio/opus", 48000, 2, "minptime=10;useinbandfec=1"⟩]
  | .video =>
    let h264 (pt mode : Nat) (profile : String) : Coding := ⟨pt, "video/H264", 90000, 0,
      s!"level-asymmetry-allowed=1;packetization-mode={mode};profile-level-id={profile}"⟩
    [⟨96, "video/VP8", 90000, 0, ""⟩, h264 102 1 "42001f", h264 127 0 "42001f",
      h264 125 1 "42e01f", h264 108 0 "42e01f", h264 123 1 "640032",
      ⟨109, "video/rtx", 90000, 0, "apt=108"⟩]

/-! ## Fitting codings -/

inductive Fit where
  | exact
  | part
  deriving Repr, DecidableEq

/-- The two bytes of a profile, in hexadecimal digits, that a level follows. -/
def profile? (s : String) : Option (List Char) :=
  let cs := s.toList.map Char.toLower
  if 4 ≤ cs.length && cs.length % 2 == 0 && cs.all fun c => c.isDigit || ('a' ≤ c && c ≤ 'f') then
    some (cs.take 4)
  else none

/-- Whether both have a parameter, and the same one as far as `f` can tell. -/
def Coding.share {α : Type} [BEq α] (c d : Coding) (key : String) (f : String → Option α) : Bool :=
  match (c.parameter? key).bind f, (d.parameter? key).bind f with
  | some v, some w => v == w
  | _, _ => false

def Coding.isH264 (c : Coding) : Bool := upperCase c.mime == "VIDEO/H264"

/-- Parameters that both have are the same. For H.264 both have to have a packetization mode and a
profile. -/
def Coding.fits (c d : Coding) : Bool :=
  if c.isH264 || d.isH264 then
    c.isH264 && d.isH264 && c.share d "packetization-mode" some && c.share d "profile-level-id" profile?
  else
    lowerCase c.mime == lowerCase d.mime && c.table.all fun (key, _) =>
      match c.parameter? key, d.parameter? key with
      | some v, some w => lowerCase v == lowerCase w
      | _, _ => true

def Coding.isSameCodec (c d : Coding) : Bool := upperCase c.mime == upperCase d.mime

/-- The coding that fits best, and how well it does. -/
def Coding.search (c : Coding) (ds : List Coding) : Option (Coding × Fit) :=
  (ds.find? c.fits).map (·, .exact) <|> (ds.find? c.isSameCodec).map (·, .part)

/-! ## Retransmissions -/

/-- The text with the first occurrence of a part replaced. -/
def replaceFirst (old new : List Char) : List Char → List Char
  | [] => if old.isEmpty then new else []
  | c :: cs =>
    if old.isPrefixOf (c :: cs) then new ++ (c :: cs).drop old.length
    else c :: replaceFirst old new cs

/-- Name another payload type as the one that is sent again. -/
def Coding.repairing (c : Coding) (old new : Nat) : Coding :=
  let parameters := replaceFirst s!"apt={old}".toList s!"apt={new}".toList c.parameters.toList
  { c with parameters := String.ofList parameters }

/-- Codings that fit so far. -/
structure Fitting where
  exact : List Coding
  part : List Coding
  deriving Repr, DecidableEq

namespace Fitting

/-- The coding of a payload type. -/
def find? (f : Fitting) (pt : Nat) : Option (Coding × Fit) :=
  (f.exact.find? fun c => c.payloadType == pt).map (·, .exact)
    <|> (f.part.find? fun c => c.payloadType == pt).map (·, .part)

/-- How well a coding fits. One for retransmissions does not fit better than the coding that it
belongs to. No answer at all if it names none. -/
def fitOf? (own : List Coding) (f : Fitting) (c : Coding) : Option (Option Fit) :=
  match c.parameter? "apt" with
  | none => some ((c.search own).map Prod.snd)
  | some n => (payloadOf? n).map fun pt => do
    let (base, fit) ← f.find? pt
    let c := match base.search own with
      | some (ours, g) => if g = fit then c.repairing pt ours.payloadType else c
      | none => c
    let (_, g) ← c.search own
    return if fit = .part then .part else g

def add? (own : List Coding) (f : Fitting) (c : Coding) : Option Fitting :=
  (fitOf? own f c).map fun
    | some .exact => { f with exact := f.exact ++ [c] }
    | some .part => { f with part := f.part ++ [c] }
    | none => f

/-- The codings that are used: of those with the same payload type and codec the first. -/
def chosen (f : Fitting) : List Coding :=
  (if f.exact.isEmpty then f.part else f.exact).foldl (fun cs c =>
    if cs.any fun d => d.mime == c.mime && d.payloadType == c.payloadType then cs else cs ++ [c]) []

end Fitting

/-! ## Header extensions -/

/-- A number, possibly with a direction, and the URL that names an extension. -/
def isExtension (value : String) : Bool :=
  match words value with
  | head :: url :: _ =>
    let isNumbered (n : String) := (below? 247 n).any (0 < ·)
    (match splitParts '/' head with
      | [n, direction] => isNumbered n && (Direction.ofName? direction).isSome
      | n :: _ => isNumbered n
      | [] => false) && Net.isUrl url
  | _ => false

def hasProperExtensions (s : Section) : Bool :=
  s.attributes.all fun a => a.key != "extmap" || a.value.any isExtension

/-! ## The whole -/

/-- What a section settles, if it makes sense. Extensions are only looked at if a coding is used. -/
def settle? (own : List Coding) (s : Section) : Option (List Coding) := do
  let f ← (← s.codings?).foldlM (Fitting.add? own) ⟨[], []⟩
  if f.chosen.isEmpty || hasProperExtensions s then return f.chosen else none

/-- The codings that are used. -/
structure Agreement where
  audio : List Coding
  video : List Coding
  deriving Repr, DecidableEq

namespace Agreement

/-- What the first section of a kind settles. -/
def settled? (d : Description) (kind : MediaKind) : Option (List Coding) :=
  match d.sections.find? (·.kind == kind.name) with
  | none => some []
  | some s => settle? (ownCodings kind) s

def ofOffer? (d : Description) : Option Agreement := do
  return ⟨← settled? d .audio, ← settled? d .video⟩

def codings (a : Agreement) : MediaKind → List Coding
  | .audio => a.audio
  | .video => a.video

end Agreement

end Headend.Sdp
