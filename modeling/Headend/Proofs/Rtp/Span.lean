import Headend.Rtp.Sequence

/-!
# Spans of an endless stream

Sequence numbers wrap, positions in a stream do not. `seqAt` gives the number of a position, and
`Span.between` the span of a range of positions. As long as a range is shorter than the circle, a
span tells of each number where its position lies; the lemmas here say so in terms of positions.
-/

namespace Headend.Rtp

/-- The sequence number at a position. -/
def seqAt (p : Nat) : UInt16 := UInt16.ofNat p

theorem toNat_seqAt (p : Nat) : (seqAt p).toNat = p % 65536 := UInt16.toNat_ofNat'

theorem seqAt_add_one (p : Nat) : seqAt p + 1 = seqAt (p + 1) := by
  apply UInt16.toNat_inj.1
  rw [UInt16.toNat_add, toNat_seqAt, toNat_seqAt, UInt16.toNat_one]
  omega

theorem toNat_seqAt_sub {p q : Nat} (h : p ≤ q) (hq : q < p + 65536) :
    (seqAt q - seqAt p).toNat = q - p := by
  rw [UInt16.toNat_sub, toNat_seqAt, toNat_seqAt]
  omega

theorem toNat_seqAt_sub_of_lt {p q : Nat} (h : p < q) (hq : q < p + 65536) :
    (seqAt p - seqAt q).toNat = 65536 - (q - p) := by
  rw [UInt16.toNat_sub, toNat_seqAt, toNat_seqAt]
  omega

theorem seqAt_inj {p q : Nat} (h : p ≤ q) (hq : q < p + 65536) (heq : seqAt p = seqAt q) :
    p = q := by
  have := congrArg UInt16.toNat heq
  rw [toNat_seqAt, toNat_seqAt] at this
  omega

/-- A full circle later the number is the same. -/
theorem seqAt_add_circle (p : Nat) : seqAt (p + 65536) = seqAt p := by
  apply UInt16.toNat_inj.1
  rw [toNat_seqAt, toNat_seqAt]
  omega

theorem seqAt_toNat_add (s0 : UInt16) (i : Nat) : seqAt (s0.toNat + i) = s0 + UInt16.ofNat i := by
  apply UInt16.toNat_inj.1
  rw [toNat_seqAt, UInt16.toNat_add, UInt16.toNat_ofNat']
  omega

/-- Every number has a position in each stretch of a full circle. -/
theorem exists_seqAt (n : UInt16) (p : Nat) : ∃ q, p ≤ q ∧ q < p + 65536 ∧ seqAt q = n := by
  have hn := n.toNat_lt
  refine ⟨p + (n.toNat + 65536 - p % 65536) % 65536, by omega, by omega, ?_⟩
  apply UInt16.toNat_inj.1
  rw [toNat_seqAt]
  omega

namespace Span

/-- The span of the positions from `f` up to and without `t`. -/
def between (f t : Nat) : Span := ⟨seqAt f, seqAt t⟩

@[simp] theorem between_head (f t : Nat) : (between f t).head = seqAt f := rfl

@[simp] theorem between_tail (f t : Nat) : (between f t).tail = seqAt t := rfl

/-- The span without its first position. -/
theorem between_succ (f t : Nat) :
    { between f t with head := (between f t).head + 1 } = between (f + 1) t := by
  rw [between_head, seqAt_add_one]
  rfl

variable {f t p : Nat}

theorem isEmpty_between (h : f ≤ t) (ht : t < f + 65536) :
    (between f t).isEmpty = decide (f = t) := by
  rw [isEmpty, Bool.eq_iff_iff, beq_iff_eq, decide_eq_true_iff]
  exact ⟨seqAt_inj h ht, congrArg seqAt⟩

theorem width_between (h : f ≤ t) (ht : t < f + 65536) : (between f t).width = t - f :=
  toNat_seqAt_sub h ht

/-- The count is the shorter way around. -/
theorem count_between (h : f ≤ t) (ht : t < f + 65536) :
    (between f t).count = min (t - f) (65536 - (t - f)) := by
  have hd : (seqAt f - seqAt t).toNat = (65536 - (t - f)) % 65536 := by
    rw [UInt16.toNat_sub, toNat_seqAt, toNat_seqAt]
    omega
  simp only [count, distance, between_head, between_tail, hd]
  split <;> omega

theorem contains_between (h : f ≤ t) (ht : t < f + 65536) (hp : f ≤ p) (hp' : p < f + 65536) :
    (between f t).contains (seqAt p) = decide (p < t) := by
  simp only [contains, between_head, between_tail, UInt16.lt_iff_toNat_lt, UInt16.le_iff_toNat_le,
    toNat_seqAt, gt_iff_lt]
  rw [Bool.eq_iff_iff]
  split <;> simp only [Bool.and_eq_true, Bool.or_eq_true, decide_eq_true_eq] <;> omega

theorem locate_empty (n : UInt16) : (between f f).locate n = .nowhere := by
  simp [locate, isEmpty]

theorem locate_inside (hp : f ≤ p) (hpt : p < t) (ht : t < f + 65536) :
    (between f t).locate (seqAt p) = .inside := by
  rw [locate, isEmpty_between (by omega) ht, contains_between (by omega) ht hp (by omega)]
  simp [hpt, show f ≠ t by omega]

/-- A position past a range is also one before it, a circle earlier; the nearer side counts. -/
theorem locate_outside (h : f < t) (htp : t ≤ p) (hp : p < f + 65536) :
    (between f t).locate (seqAt p) = if f + 65536 - p ≤ p - t then .before else .after := by
  have hhead : (seqAt f - seqAt p).toNat = f + 65536 - p := by
    rw [toNat_seqAt_sub_of_lt (by omega) hp]
    omega
  have htail : (seqAt p - seqAt t).toNat = p - t := toNat_seqAt_sub htp (by omega)
  rw [locate, isEmpty_between (by omega) (by omega),
    contains_between (by omega) (by omega) (by omega) hp]
  simp only [between_head, between_tail, UInt16.le_iff_toNat_le, hhead, htail]
  simp [show f ≠ t by omega, show ¬ p < t by omega]

/-- What lies a few positions before a range. -/
theorem locate_before (hp : p < f) (h : f < t) (hnear : f - p ≤ p + 65536 - t)
    (ht : t ≤ p + 65536) : (between f t).locate (seqAt p) = .before := by
  rw [← seqAt_add_circle, locate_outside h (by omega) (by omega), if_pos (by omega)]

end Span

end Headend.Rtp
