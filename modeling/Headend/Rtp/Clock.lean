/-!
# Media clocks

A number of ticks at a clock rate, in nanoseconds. The quotient passes through a binary fraction of
53 significant bits, so two roundings follow each other; both go to the nearer neighbour, and from
the middle to the even one.
-/

namespace Headend.Rtp

/-- The quotient rounded to the nearest whole number, from the middle to the even one. -/
def roundHalfEven (num den : Nat) : Nat :=
  let q := num / den
  let twice := 2 * (num % den)
  if twice < den then q
  else if twice > den then q + 1
  else q + q % 2

/-- Bits to shift the quotient by so that its whole part has 53 bits. -/
def significandShift (num den : Nat) : Nat :=
  let s := 52 + den.log2 - num.log2
  if num <<< s < den <<< 52 then s + 1 else s

/-- The quotient in seconds as a 53-bit fraction, in whole nanoseconds. -/
def quotientNanos (num den : Nat) : Nat :=
  if num = 0 then 0 else
  let s := significandShift num den
  roundHalfEven (roundHalfEven (num <<< s) den * 1000000000) (1 <<< s)

/-- The nanoseconds from one timestamp to a later one. Timestamps wrap. -/
def elapsedNanos (rate : Nat) (start stop : UInt32) : Nat :=
  quotientNanos (stop - start).toNat rate

example : elapsedNanos 48000 0 960 = 20000000 := by decide

end Headend.Rtp
