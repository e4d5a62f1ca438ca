/-!
# Sequence numbers

Sequence numbers are 16 bits and wrap. A `Span` is a half-open range of them: it may wrap past the
largest number, and it is empty when its ends meet.
-/

namespace Headend.Rtp

/-- The shorter way around the circle from one number to the other. -/
def distance (x y : UInt16) : Nat :=
  let d := (x - y).toNat
  if d > 32767 then 65536 - d else d

structure Span where
  head : UInt16
  tail : UInt16
  deriving Repr, DecidableEq

/-- Where a number lies as seen from a span. -/
inductive Side where
  | nowhere
  | before
  | inside
  | after
  deriving Repr, DecidableEq

namespace Span

def empty : Span := ⟨0, 0⟩

def isEmpty (s : Span) : Bool := s.head == s.tail

def count (s : Span) : Nat := distance s.head s.tail

/-- The numbers from head to tail, counted along the circle. -/
def width (s : Span) : Nat := (s.tail - s.head).toNat

def contains (s : Span) (n : UInt16) : Bool :=
  if s.head < s.tail then s.head ≤ n && n < s.tail
  else s.head > s.tail && (s.head ≤ n || n < s.tail)

/-- A number outside a span counts as before it if the way to its head is no longer than the way
from its tail. -/
def locate (s : Span) (n : UInt16) : Side :=
  if s.isEmpty then .nowhere
  else if s.contains n then .inside
  else if s.head - n ≤ n - s.tail then .before
  else .after

/-- The span stretched to hold `n`, on the nearer side. -/
def stretch (s : Span) (n : UInt16) : Span :=
  match s.locate n with
  | .nowhere => ⟨n, n + 1⟩
  | .before => { s with head := n }
  | .after => { s with tail := n + 1 }
  | .inside => s

end Span

end Headend.Rtp
