/-!
# Log throttling

A throttle lets one line per key through in every interval, and counts the lines it holds back so
that the next one let through can report them. Time is a natural number in any unit.
-/

namespace Headend

namespace Throttle

structure Entry where
  /-- When a line was last let through. -/
  last : Nat
  /-- Lines held back since. -/
  suppressed : Nat
  deriving Repr, DecidableEq

end Throttle

structure Throttle where
  interval : Nat
  entries : List (String × Throttle.Entry)
  deriving Repr, DecidableEq

namespace Throttle

def new (interval : Nat) : Throttle := ⟨interval, []⟩

/-- Seconds between two lines when nothing else is said. -/
def defaultSeconds : Nat := 5

def get? (t : Throttle) (key : String) : Option Entry := t.entries.lookup key

/-- Forget a key, so that its next line passes. -/
def clear (t : Throttle) (key : String) : Throttle :=
  { t with entries := t.entries.filter fun e => e.1 != key }

def put (t : Throttle) (key : String) (e : Entry) : Throttle :=
  { t.clear key with entries := (key, e) :: (t.clear key).entries }

/-- Ask for a line. The answer is the number of lines held back before it, or that it is held back
itself. -/
def check (t : Throttle) (now : Nat) (key : String) : Throttle × Option Nat :=
  match t.get? key with
  | none => (t.put key ⟨now, 0⟩, some 0)
  | some e =>
    if now - e.last < t.interval then (t.put key { e with suppressed := e.suppressed + 1 }, none)
    else (t.put key ⟨now, 0⟩, some e.suppressed)

def shouldLog (t : Throttle) (now : Nat) (key : String) : Throttle × Bool :=
  let (t, answer) := t.check now key
  (t, answer.isSome)

/-! ## Lookups -/

theorem get?_clear (t : Throttle) (key other : String) :
    (t.clear key).get? other = if other = key then none else t.get? other := by
  simp only [get?, clear]
  induction t.entries with
  | nil => simp
  | cons e es ih =>
    obtain ⟨k, e⟩ := e
    by_cases hk : k = key
    · subst hk
      rw [List.filter_cons_of_neg (by simp), ih]
      by_cases ho : other = k
      · simp [ho]
      · simp [ho, List.lookup_cons, beq_false_of_ne ho]
    · rw [List.filter_cons_of_pos (by simpa using hk)]
      by_cases ho : other = k
      · simp [ho, hk]
      · simp only [List.lookup_cons, beq_false_of_ne ho, ih]

theorem get?_put (t : Throttle) (key other : String) (e : Entry) :
    (t.put key e).get? other = if other = key then some e else t.get? other := by
  have h := get?_clear t key other
  simp only [get?, put, List.lookup_cons] at h ⊢
  by_cases ho : other = key
  · simp [ho]
  · simp [beq_false_of_ne ho, h, ho]

end Throttle

end Headend
