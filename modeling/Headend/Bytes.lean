/-!
# Byte strings

Wire data is a list of bytes, so that it is taken apart by pattern matching and reasoned about by
induction. Multi-byte numbers are big-endian unless a name says otherwise.
-/

namespace Headend

abbrev Bytes := List UInt8

/-- The number whose base-256 digits are the bytes, most significant first. -/
def bigEndian (bs : Bytes) : Nat :=
  bs.foldl (fun n b => 256 * n + b.toNat) 0

/-- The `width` low base-256 digits of `n`, most significant first. -/
def toBigEndian : (width n : Nat) → Bytes
  | 0, _ => []
  | width + 1, n => toBigEndian width (n / 256) ++ [UInt8.ofNat n]

/-- The `width` low base-256 digits of `n`, least significant first. -/
def toLittleEndian : (width n : Nat) → Bytes
  | 0, _ => []
  | width + 1, n => UInt8.ofNat n :: toLittleEndian width (n / 256)

@[simp] theorem length_toBigEndian (width n : Nat) : (toBigEndian width n).length = width := by
  induction width generalizing n with
  | zero => rfl
  | succ width ih => simp [toBigEndian, ih]

theorem bigEndian_append_singleton (bs : Bytes) (b : UInt8) :
    bigEndian (bs ++ [b]) = 256 * bigEndian bs + b.toNat := by
  simp [bigEndian, List.foldl_append]

end Headend
