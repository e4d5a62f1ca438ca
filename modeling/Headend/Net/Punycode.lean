/-!
# Punycode

Text written with ASCII letters, digits and hyphens alone. The ASCII characters come first; after
the last hyphen the others are given by the steps from each to the next, in the order of their
numbers. A step is written in base 36 with its lowest digit first, and where it ends depends on the
steps before it.
-/

namespace Headend.Net.Punycode

def digit? (c : Char) : Option Nat :=
  if 'a' ≤ c && c ≤ 'z' then some (c.toNat - 97)
  else if '0' ≤ c && c ≤ '9' then some (c.toNat - 22)
  else none

/-- A digit below this one is the last, for the digit at place `k`. -/
def threshold (bias k : Nat) : Nat := min 26 (max 1 (k - bias))

/-- A step, added to where the last one led, and what follows it. The next digit is at place `k` and
has the weight `w`. -/
def step (bias : Nat) : (k w sum : Nat) → List Char → Option (Nat × List Char)
  | _, _, _, [] => none
  | k, w, sum, c :: cs => (digit? c).bind fun d =>
    let t := threshold bias k
    if d < t then some (sum + d * w, cs) else step bias (k + 36) (w * (36 - t)) (sum + d * w) cs

theorem length_lt_of_step {bias k w sum n : Nat} {cs rest : List Char}
    (h : step bias k w sum cs = some (n, rest)) : rest.length < cs.length := by
  induction cs generalizing k w sum with
  | nil => simp [step] at h
  | cons c cs ih =>
    rw [step, Option.bind_eq_some_iff] at h
    obtain ⟨d, _, h⟩ := h
    simp only at h
    split at h
    · simp_all
    · exact Nat.lt_succ_of_lt (ih h)

/-- The bias that a step of this size shrinks to. -/
def damped (delta k : Nat) : Nat :=
  if 455 < delta then damped (delta / 35) (k + 36) else k + 36 * delta / (delta + 38)
termination_by delta
decreasing_by omega

/-- The bias after a step, of which the result has `count` characters. -/
def adapt (delta count : Nat) (first : Bool) : Nat :=
  let delta := delta / (if first then 700 else 2)
  damped (delta + delta / count) 0

/-- The text, of which some characters are there. The next one has at least the number `n`, and
those of that number begin at place `i`. -/
def decodeFrom (bias n i : Nat) (out : List Char) (cs : List Char) : Option (List Char) :=
  if cs.isEmpty then some out else
  match _h : step bias 36 1 i cs with
  | none => none
  | some (j, rest) =>
    let count := out.length + 1
    let n := n + j / count
    if n.isValidChar then
      decodeFrom (adapt (j - i) count (i == 0)) n (j % count + 1)
        (out.insertIdx (j % count) (Char.ofNat n)) rest
    else none
termination_by cs.length
decreasing_by exact length_lt_of_step _h

def decode (cs : List Char) : Option (List Char) :=
  let tail := (cs.reverse.takeWhile (· != '-')).reverse
  let front := cs.take (cs.length - tail.length - 1)
  decodeFrom 72 128 0 front (if front.isEmpty then cs else tail)

end Headend.Net.Punycode
