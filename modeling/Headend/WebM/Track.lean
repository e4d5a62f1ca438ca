import Headend.Ebml.Element

/-!
# WebM tracks

The description of a track as it stands in the stream header.
-/

namespace Headend.WebM

open Ebml

/-! ## Element identifiers -/

namespace Id

def ebml : Id := 0x1A45DFA3
def ebmlVersion : Id := 0x4286
def ebmlReadVersion : Id := 0x42F7
def ebmlMaxIdLength : Id := 0x42F2
def ebmlMaxSizeLength : Id := 0x42F3
def docType : Id := 0x4282
def docTypeVersion : Id := 0x4287
def docTypeReadVersion : Id := 0x4285
def segment : Id := 0x18538067
def info : Id := 0x1549A966
def timestampScale : Id := 0x2AD7B1
def muxingApp : Id := 0x4D80
def writingApp : Id := 0x5741
def tracks : Id := 0x1654AE6B
def trackEntry : Id := 0xAE
def trackNumber : Id := 0xD7
def trackUid : Id := 0x73C5
def trackType : Id := 0x83
def codecId : Id := 0x86
def codecPrivate : Id := 0x63A2
def name : Id := 0x536E
def defaultDuration : Id := 0x23E383
def video : Id := 0xE0
def pixelWidth : Id := 0xB0
def pixelHeight : Id := 0xBA
def audio : Id := 0xE1
def samplingFrequency : Id := 0xB5
def channels : Id := 0x9F
def cluster : Id := 0x1F43B675
def timestamp : Id := 0xE7
def simpleBlock : Id := 0xA3

end Id

/-! ## Track entries -/

inductive Media where
  | video (width height : Nat)
  /-- The sampling frequency is given by the bits of a 64-bit floating-point number. -/
  | audio (frequency : UInt64) (channels : Nat)
  deriving Repr, DecidableEq

structure Track where
  number : Nat
  uid : Nat
  name : String
  codecId : String
  codecPrivate : Option Bytes
  /-- Nanoseconds in a frame, if that is constant. -/
  defaultDuration : Option Nat
  media : Media
  deriving Repr, DecidableEq

def Media.trackType : Media → Nat
  | video _ _ => 1
  | audio _ _ => 2

def Media.encode : Media → Bytes
  | video width height =>
    binary Id.video (uint Id.pixelWidth width ++ uint Id.pixelHeight height)
  | audio frequency channels =>
    binary Id.audio (float Id.samplingFrequency frequency ++ uint Id.channels channels)

namespace Track

def encode (t : Track) : Bytes :=
  binary Id.trackEntry <|
    uint Id.trackNumber t.number
      ++ uint Id.trackUid t.uid
      ++ uint Id.trackType t.media.trackType
      ++ string Id.codecId t.codecId
      ++ string Id.name t.name
      ++ (t.codecPrivate.elim [] (binary Id.codecPrivate))
      ++ (t.defaultDuration.elim [] (uint Id.defaultDuration))
      ++ t.media.encode

/-- The identification header of an Opus stream: version, channels, samples to skip at the start,
input rate, gain and channel mapping. -/
def opusHead (channels : UInt8) (rate : Nat) : Bytes :=
  utf8 "OpusHead" ++ [1, channels] ++ toLittleEndian 2 0 ++ toLittleEndian 4 rate
    ++ toLittleEndian 2 0 ++ [0]

/-- Stereo Opus at 48 kHz with frames of 20 ms. -/
def opus : Track where
  number := 1
  uid := 12345
  name := "Audio"
  codecId := "A_OPUS"
  codecPrivate := some (opusHead 2 48000)
  defaultDuration := some 20000000
  media := .audio 0x40E7700000000000 2

def vp8 (width height : Nat) : Track where
  number := 1
  uid := 67890
  name := "Video"
  codecId := "V_VP8"
  codecPrivate := none
  defaultDuration := none
  media := .video width height

end Track

end Headend.WebM
