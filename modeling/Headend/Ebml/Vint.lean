import Headend.Bytes

/-!
# EBML variable-size integers

A number takes one to eight bytes; the position of the first set bit tells how many, and the bits
after it are the number. All of them set is no number but means that a size is not known.
-/

namespace Headend.Ebml.Vint

/-- The fewest bytes whose all-ones pattern stays above `n`; eight if none does. -/
def length (n : Nat) : Nat :=
  ((List.range 8).map (· + 1)).find? (fun k => n < 1 <<< (7 * k) - 1) |>.getD 8

def encode (n : Nat) : Bytes :=
  let k := length n
  toBigEndian k (n ||| 1 <<< (7 * k))

/-! ## Reading -/

inductive Size where
  | known (n : Nat)
  | unknown
  deriving Repr, DecidableEq

/-- How many bytes a variable-size integer takes, told from its first byte. -/
def width (b : UInt8) : Option Nat :=
  ((List.range 8).map (· + 1)).find? (fun k => b.toNat >>> (8 - k) % 2 = 1)

/-- Read one variable-size integer. -/
def decode (bs : Bytes) : Option (Size × Bytes) :=
  match bs with
  | [] => none
  | b :: _ => do
    let k ← width b
    if bs.length < k then none else
    let n := bigEndian (bs.take k) - 1 <<< (7 * k)
    let size := if n = 1 <<< (7 * k) - 1 then .unknown else .known n
    return (size, bs.drop k)

example : encode 127 = [0x40, 0x7f] := by decide

end Headend.Ebml.Vint
