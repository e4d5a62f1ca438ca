import Headend.Bytes

/-!
# Percent-encoding

A percent sign and two hexadecimal digits stand for a byte. All else stands for itself, a percent
sign without its digits too.
-/

namespace Headend.Percent

def hexValue? (b : UInt8) : Option UInt8 :=
  if 0x30 ≤ b && b ≤ 0x39 then some (b - 0x30)
  else if 0x41 ≤ b && b ≤ 0x46 then some (b - 0x37)
  else if 0x61 ≤ b && b ≤ 0x66 then some (b - 0x57)
  else none

def decode : Bytes → Bytes
  | [] => []
  | 0x25 :: hi :: lo :: rest =>
    match hexValue? hi, hexValue? lo with
    | some h, some l => (16 * h + l) :: decode rest
    | _, _ => 0x25 :: decode (hi :: lo :: rest)
  | b :: rest => b :: decode rest

/-- Text without percent signs is what it stands for. -/
theorem decode_eq_self {bs : Bytes} (h : 0x25 ∉ bs) : decode bs = bs := by
  induction bs with
  | nil => simp [decode]
  | cons b bs ih =>
    simp only [List.mem_cons, not_or] at h
    rw [decode, ih h.2]
    intro _ _ _ hb
    exact absurd hb.symm h.1

end Headend.Percent
