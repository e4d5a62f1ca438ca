import Headend.Pipe.Basic

/-!
# A pipe from end to end

What an attempt to write or to read says of the pipe, and what it changes: first for any pipe, then
for one that nobody closes and that is read chunk by chunk.
-/

namespace Headend.Pipe

variable {p q : Pipe} {chunk : Bytes} {n : Nat}

/-! ## Any pipe -/

theorem capacity_of_accepted (h : p.offer chunk = .accepted n q) : q.capacity = p.capacity := by
  unfold offer at h
  split at h
  · cases h
  · split at h
    · cases h
      rfl
    · split at h
      · cases h
      · split at h
        · cases h
          rfl
        · cases h

/-! A pipe is closed by nobody who only uses it. -/

theorem closed_of_accepted (h : p.offer chunk = .accepted n q) : q.closed = p.closed := by
  unfold offer at h
  split at h
  · cases h
  · split at h
    · cases h
      rfl
    · split at h
      · cases h
      · split at h <;> cases h
        rfl

theorem closed_of_take {data : Bytes} (h : p.take = .chunk data q) : q.closed = p.closed := by
  unfold take at h
  split at h
  · cases h
    rfl
  · split at h
    · cases h
    · split at h
      · cases h
        rfl
      · split at h <;> cases h

theorem closed_of_read {size : Nat} {data : Bytes} (h : p.read size = .chunk data q) :
    q.closed = p.closed := by
  unfold read at h
  split at h
  · cases h
    rfl
  · split at h
    case h_1 htaken =>
      have hkept := closed_of_take htaken
      cases h
      exact hkept
    case h_2 =>
      cases h
      rfl
    all_goals cases h

/-- A chunk gets in only where both ends are there and nobody closed the pipe. -/
theorem usable_of_accepted (h : p.offer chunk = .accepted n q) (hne : chunk ≠ []) :
    p.closed = false ∧ p.readerGone = false := by
  unfold offer at h
  split at h
  · cases h
  · rw [if_neg (by simpa using hne)] at h
    split at h
    · cases h
    · exact ⟨by simpa using ‹¬ p.closed = true›, by simpa using ‹¬ p.readerGone = true›⟩

/-- Where nothing is queued a writer need not wait. -/
theorem unusable_of_refused (hqueue : p.queue = []) (hroom : 0 < p.capacity)
    (h : ∀ n q, p.offer chunk ≠ .accepted n q) : p.closed = true ∨ p.readerGone = true := by
  by_cases hclosed : p.closed = true
  · exact .inl hclosed
  by_cases hgone : p.readerGone = true
  · exact .inr hgone
  by_cases hempty : chunk.isEmpty
  · exact absurd (by simp [offer, hclosed, hempty]) (h 0 p)
  · exact absurd (by simp [offer, hclosed, hempty, hgone, hqueue, hroom])
      (h chunk.length { p with queue := [chunk] })

@[simp] theorem capacity_drain (p : Pipe) : p.drain.2.1.capacity = p.capacity := by
  unfold drain
  dsimp only
  split <;> rfl

/-- Once the reader has taken all there is, a writer need not wait. -/
theorem offer_drain_ne_wait (hp : 0 < p.capacity) : p.drain.2.1.offer chunk ≠ .wait := by
  intro h
  cases hclosed : p.closed with
  | true => simp [drain, offer, hclosed] at h
  | false =>
    simp only [drain, hclosed, Bool.false_eq_true, if_false, offer] at h
    split at h
    · cases h
    · split at h
      · cases h
      · rw [List.length_nil, if_pos hp] at h
        cases h

/-! ## A pipe in use -/

/-- Nobody has closed the pipe or read a part of a chunk, and there is room for a chunk at all. -/
structure Intact (p : Pipe) : Prop where
  closed : p.closed = false
  leftover : p.leftover = []
  capacity : 0 < p.capacity

theorem Intact.new (capacity : Nat) : (Pipe.new capacity).Intact :=
  ⟨rfl, rfl, Nat.lt_of_lt_of_le Nat.zero_lt_one (Nat.le_max_right ..)⟩

theorem Intact.queue (h : p.Intact) (queue : List Bytes) : { p with queue := queue }.Intact :=
  ⟨h.closed, h.leftover, h.capacity⟩

theorem Intact.dropWriter (h : p.Intact) : p.dropWriter.Intact := ⟨h.closed, h.leftover, h.capacity⟩

theorem Intact.dropReader (h : p.Intact) : p.dropReader.Intact := ⟨h.closed, h.leftover, h.capacity⟩

/-! ## Writing -/

/-- A chunk that is accepted goes to the end of the queue. -/
theorem offer_eq_accepted (h : p.offer chunk = .accepted n q) (hne : chunk ≠ []) :
    q = { p with queue := p.queue ++ [chunk] } := by
  have hempty : chunk.isEmpty = false := by simpa using hne
  rw [offer, hempty] at h
  split at h
  · cases h
  · rw [if_neg (by simp)] at h
    split at h
    · cases h
    · split at h
      · cases h
        rfl
      · cases h

/-- A pipe breaks for its writer when the reader lets go. -/
theorem readerGone_of_broken (hp : p.Intact) (h : p.offer chunk = .broken) :
    p.readerGone = true := by
  rw [offer, hp.closed, if_neg (by simp)] at h
  split at h
  · cases h
  · split at h
    · assumption
    · split at h <;> cases h

/-- A writer waits only for a reader that is behind. -/
theorem queue_ne_nil_of_wait (hp : p.Intact) (h : p.offer chunk = .wait) : p.queue ≠ [] := by
  intro hqueue
  rw [offer, hp.closed, if_neg (by simp)] at h
  split at h
  · cases h
  · split at h
    · cases h
    · rw [hqueue, List.length_nil, if_pos hp.capacity] at h
      cases h

/-! ## Reading -/

/-- The ways for a read to come out. -/
theorem take_cases (hp : p.Intact) :
    (∃ c rest, p.queue = c :: rest ∧ p.take = .chunk c { p with queue := rest }) ∨
      p.queue = [] ∧ p.take = if p.writerGone then .ended else .wait := by
  cases hqueue : p.queue with
  | nil => exact .inr ⟨rfl, by simp [take, hp.leftover, hp.closed, hqueue]⟩
  | cons c rest => exact .inl ⟨c, rest, rfl, by simp [take, hp.leftover, hp.closed, hqueue]⟩

end Headend.Pipe
