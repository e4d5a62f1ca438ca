/-!
# Numbers in text
-/

namespace Headend

def digits? (cs : List Char) : Option Nat :=
  if !cs.isEmpty && cs.all fun c => '0' ≤ c && c ≤ '9' then
    some (cs.foldl (fun n c => n * 10 + (c.toNat - 48)) 0)
  else none

/-- A natural number, possibly after a plus sign. -/
def natural? (s : String) : Option Nat :=
  match s.toList with
  | '+' :: cs => digits? cs
  | cs => digits? cs

def below? (bound : Nat) (s : String) : Option Nat := (natural? s).filter (· < bound)

/-- A natural number below the bound; zero may be negative. -/
def signedBelow? (bound : Nat) (s : String) : Option Nat :=
  match s.toList with
  | '-' :: cs => (digits? cs).filter (· == 0)
  | _ => below? bound s

theorem lt_of_below? {bound n : Nat} {s : String} (h : below? bound s = some n) : n < bound := by
  simpa using (Option.filter_eq_some_iff.mp h).2

end Headend
