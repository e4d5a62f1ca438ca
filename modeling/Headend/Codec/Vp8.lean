import Headend.Bytes

/-!
# VP8 payloads and frames

A payload opens with a descriptor of one to six bytes; what is left is part of a frame. The four
flags that tell which optional fields follow are only read when the descriptor says so, and hold
until then for later payloads. `keyframeSize` reads the header of a keyframe.
-/

namespace Headend.Codec.Vp8

def clockRate : Nat := 90000

/-! ## Descriptors -/

/-- Which optional fields the descriptor has. -/
structure Fields where
  pictureId : Bool
  levelIndex : Bool
  temporal : Bool
  key : Bool
  deriving Repr, DecidableEq

def Fields.none : Fields := ⟨false, false, false, false⟩

def Fields.ofByte (b : UInt8) : Fields where
  pictureId := b &&& 0x80 != 0
  levelIndex := b &&& 0x40 != 0
  temporal := b &&& 0x20 != 0
  key := b &&& 0x10 != 0

/-- The bytes after a picture id, which has a second byte if the top bit of the first is set. -/
def skipPictureId : Bytes → Option Bytes
  | [] => none
  | b :: rest => if b &&& 0x80 != 0 then some (rest.drop 1) else some rest

/-- Nothing is left when a field takes the last byte, and that is refused. -/
def nonempty (bs : Bytes) : Option Bytes :=
  if bs.isEmpty then none else some bs

def skipByte (present : Bool) (bs : Bytes) : Bytes :=
  if present then bs.drop 1 else bs

/-- The frame part behind the optional fields. -/
def Fields.skip (f : Fields) (bs : Bytes) : Option Bytes := do
  let bs ← if f.pictureId then skipPictureId bs else some bs
  let bs ← nonempty bs
  let bs ← nonempty (skipByte f.levelIndex bs)
  nonempty (skipByte (f.temporal || f.key) bs)

/-- The frame part in a payload, and the fields in force for the next one. -/
def depacketize (fields : Fields) (payload : Bytes) : Fields × Option Bytes :=
  match payload with
  | b0 :: b1 :: rest =>
    if payload.length < 4 then (fields, none)
    else if b0 &&& 0x80 != 0 then
      let fields := Fields.ofByte b1
      (fields, fields.skip rest)
    else (fields, fields.skip (b1 :: rest))
  | _ => (fields, none)

/-- Whether a payload begins a frame. -/
def isHead (payload : Bytes) : Bool :=
  match payload with
  | [] => false
  | b :: _ => b &&& 0x10 != 0

/-! ## Frames -/

/-- A keyframe has the lowest bit of its first byte clear. -/
def isKeyframe (frame : Bytes) : Bool :=
  match frame with
  | [] => false
  | b :: _ => b &&& 1 == 0

/-- Width and height from the header of a keyframe; the two top bits of each are for scaling. -/
def keyframeSize (frame : Bytes) : Option (Nat × Nat) :=
  match frame with
  | b :: _ :: _ :: 0x9D :: 0x01 :: 0x2A :: w0 :: w1 :: h0 :: h1 :: _ =>
    if b &&& 1 == 0 then
      some ((256 * w1.toNat + w0.toNat) % 0x4000, (256 * h1.toNat + h0.toNat) % 0x4000)
    else none
  | _ => none

theorem isKeyframe_of_keyframeSize {frame : Bytes} {size : Nat × Nat}
    (h : keyframeSize frame = some size) : isKeyframe frame = true := by
  unfold keyframeSize at h
  split at h
  · split at h
    · simp_all [isKeyframe]
    · simp at h
  · simp at h

/-- The sides of a frame are numbers of 14 bits. -/
theorem lt_of_keyframeSize {frame : Bytes} {width height : Nat}
    (h : keyframeSize frame = some (width, height)) : width < 0x4000 ∧ height < 0x4000 := by
  unfold keyframeSize at h
  split at h
  · split at h
    · obtain ⟨rfl, rfl⟩ := Prod.mk.inj (Option.some.inj h)
      omega
    · cases h
  · cases h

end Headend.Codec.Vp8
