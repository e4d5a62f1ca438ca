import Headend.Text.Split

/-!
# Codecs and media types

Media types are compared without regard to the case of ASCII letters.
-/

namespace Headend

inductive MediaKind where
  | audio
  | video
  deriving Repr, DecidableEq

inductive Codec where
  | opus
  | vp8
  | h264
  deriving Repr, DecidableEq

/-- Lower-case form of the ASCII letters; all else stays. -/
def asciiLower (s : String) : String := s.map Char.toLower

namespace Codec

def all : List Codec := [opus, vp8, h264]

def mime : Codec → String
  | opus => "audio/opus"
  | vp8 => "video/VP8"
  | h264 => "video/H264"

def kind : Codec → MediaKind
  | opus => .audio
  | vp8 | h264 => .video

def ofMime? (mime : String) : Option Codec :=
  all.find? fun c => asciiLower c.mime == asciiLower mime

theorem ofMime?_mime (c : Codec) : ofMime? c.mime = some c := by
  cases c <;> decide +kernel

end Codec

def MediaKind.name : MediaKind → String
  | audio => "audio"
  | video => "video"

def MediaKind.ofName? (s : String) : Option MediaKind :=
  [audio, video].find? fun k => k.name == s

/-- The kind that stands before the first slash. -/
def MediaKind.ofMime? (mime : String) : Option MediaKind :=
  match splitFirst '/' mime with
  | (_, none) => none
  | (kind, some _) =>
    match asciiLower kind with
    | "audio" => some .audio
    | "video" => some .video
    | _ => none

/-! ## Local tracks -/

/-- A track that republishes what comes in. -/
structure LocalTrack where
  id : String
  streamId : String
  mime : String
  clockRate : Nat
  channels : Nat
  parameters : String
  deriving Repr, DecidableEq

namespace LocalTrack

/-- The id follows the kind: all that is not audio counts as video. -/
def idFor (kind : Option MediaKind) : String :=
  if kind = some .audio then "audio" else "video"

/-- A track known by its media type alone. -/
def ofMime (mime streamId : String) : LocalTrack :=
  ⟨idFor (MediaKind.ofMime? mime), streamId, mime, 0, 0, ""⟩

/-- The kind of a track as its media type spells it, in lower case only. -/
def kindName (t : LocalTrack) : String :=
  if t.mime.startsWith "audio/" then "audio"
  else if t.mime.startsWith "video/" then "video"
  else "Unspecified"

end LocalTrack

end Headend
