import Headend.Proofs.Rtp.Span
import Headend.Rtp.Assembler

/-!
# What an assembler stores

`Stored s span f t v` reads slots and their span by position: the span goes from `f` to `t`, the
slot of a position `p` in it holds `v p`, and all other slots are empty. The lemmas say how storing
a packet and freeing the oldest slot change the view.
-/

namespace Headend.Rtp

structure Stored (s : Slots) (span : Span) (f t : Nat) (v : Nat → Option Packet) : Prop where
  span_eq : span = .between f t
  le : f ≤ t
  short : t < f + 65536
  slot : ∀ p, f ≤ p → p < f + 65536 → s.get? (seqAt p) = if p < t then v p else none

/-- The view once a packet is stored at a position. -/
def storeAt (f t : Nat) (v : Nat → Option Packet) (p : Nat) (pkt : Packet) :
    Nat → Option Packet :=
  fun q => if q = p then some pkt else if f ≤ q ∧ q < t then v q else none

section StoreAt

variable {f t p q : Nat} {v : Nat → Option Packet} {pkt pkt' : Packet}

@[simp] theorem storeAt_self : storeAt f t v p pkt p = some pkt := by
  simp [storeAt]

theorem storeAt_of_ne (hqp : q ≠ p) (hf : f ≤ q) (ht : q < t) : storeAt f t v p pkt q = v q := by
  simp [storeAt, hqp, hf, ht]

/-- Nothing is in the new view but the packet and what was in the old one. -/
theorem of_storeAt_eq_some (h : storeAt f t v p pkt q = some pkt') :
    pkt' = pkt ∨ v q = some pkt' := by
  unfold storeAt at h
  split at h
  · exact .inl (Option.some.inj h).symm
  · split at h
    · exact .inr h
    · cases h

theorem of_storeAt_ne_none (hqp : q ≠ p) (h : storeAt f t v p pkt q ≠ none) :
    q < t ∧ v q ≠ none ∧ storeAt f t v p pkt q = v q := by
  by_cases hin : f ≤ q ∧ q < t
  · have heq : storeAt f t v p pkt q = v q := storeAt_of_ne hqp hin.1 hin.2
    exact ⟨hin.2, heq ▸ h, heq⟩
  · have hnone : storeAt f t v p pkt q = none := by simp [storeAt, hqp, hin]
    exact absurd hnone h

end StoreAt

namespace Stored

variable {s : Slots} {span : Span} {f t p : Nat} {v w : Nat → Option Packet} {pkt : Packet}

/-- Only the view inside the span matters. -/
theorem congr (h : Stored s span f t v) (hvw : ∀ q, f ≤ q → q < t → v q = w q) :
    Stored s span f t w := by
  refine ⟨h.span_eq, h.le, h.short, fun q hq hq' => ?_⟩
  rw [h.slot q hq hq']
  split
  · rename_i hlt
    exact hvw q hq hlt
  · rfl

theorem get?_of_lt (h : Stored s span f t v) (hp : f ≤ p) (hpt : p < t) :
    s.get? (seqAt p) = v p := by
  have := h.short
  rw [h.slot p hp (by omega), if_pos hpt]

theorem get?_of_ge (h : Stored s span f t v) (hp : t ≤ p) (hp' : p < f + 65536) :
    s.get? (seqAt p) = none := by
  have := h.le
  rw [h.slot p (by omega) hp', if_neg (by omega)]

/-! ## Freeing the oldest slot -/

theorem erase (h : Stored s span f t v) (hlt : f < t) :
    Stored (s.erase span.head) { span with head := span.head + 1 } (f + 1) t v := by
  have hshort := h.short
  refine ⟨?_, by omega, by omega, fun p hp hp' => ?_⟩
  · rw [h.span_eq, Span.between_succ]
  · rw [Slots.get?_erase, h.span_eq, Span.between_head]
    by_cases hfull : p = f + 65536
    · -- A full circle later the number is that of the slot just freed.
      subst hfull
      rw [if_pos (seqAt_add_circle f).symm, if_neg (by omega)]
    · have hne : seqAt f ≠ seqAt p := fun heq => by
        have := seqAt_inj (by omega) (by omega) heq
        omega
      rw [if_neg hne, h.slot p (by omega) (by omega)]

/-! ## Storing a packet -/

/-- Storing changes one slot, whichever way the span is stretched for it. -/
theorem insert (h : Stored s span f t v) {f' t' : Nat} (hf : f' ≤ f) (ht : t ≤ t') (hp : f' ≤ p)
    (hp' : p < t') (hshort : t' < f' + 65536) :
    Stored (s.insert (seqAt p) pkt) (.between f' t') f' t' (storeAt f t v p pkt) := by
  have hle := h.le
  refine ⟨rfl, by omega, hshort, fun q hq hq' => ?_⟩
  rw [Slots.get?_insert]
  by_cases hqp : q = p
  · subst hqp
    simp [storeAt, hp']
  · have hne : seqAt p ≠ seqAt q := fun heq => hqp <| by
      rcases Nat.le_total p q with hle | hle
      · exact (seqAt_inj hle (by omega) heq).symm
      · exact seqAt_inj hle (by omega) heq.symm
    rw [if_neg hne, storeAt, if_neg hqp]
    by_cases hfq : f ≤ q
    · rw [h.slot q hfq (by omega)]
      by_cases hqt : q < t
      · rw [if_pos hqt, if_pos (by omega), if_pos ⟨hfq, hqt⟩]
      · have hout : ¬ (f ≤ q ∧ q < t) := by omega
        rw [if_neg hqt, if_neg hout, ite_self]
    · -- A number before the old span is one past it, too.
      have hout : ¬ (f ≤ q ∧ q < t) := by omega
      rw [← seqAt_add_circle, h.get?_of_ge (by omega) (by omega), if_neg hout, ite_self]

theorem insert_inside (h : Stored s span f t v) (hp : f ≤ p) (hpt : p < t) :
    Stored (s.insert (seqAt p) pkt) (span.stretch (seqAt p)) f t (storeAt f t v p pkt) := by
  have hstretch : span.stretch (seqAt p) = .between f t := by
    rw [h.span_eq, Span.stretch, Span.locate_inside hp hpt h.short]
  rw [hstretch]
  exact h.insert (Nat.le_refl _) (Nat.le_refl _) hp hpt h.short

theorem insert_after (h : Stored s span f t v) (hne : f < t) (htp : t ≤ p)
    (hnear : p - t < f + 65536 - p) (hp : p + 1 < f + 65536) :
    Stored (s.insert (seqAt p) pkt) (span.stretch (seqAt p)) f (p + 1) (storeAt f t v p pkt) := by
  have hstretch : span.stretch (seqAt p) = .between f (p + 1) := by
    rw [h.span_eq, Span.stretch, Span.locate_outside hne htp (by omega), if_neg (by omega)]
    rw [Span.between, Span.between, seqAt_add_one]
  rw [hstretch]
  exact h.insert (Nat.le_refl _) (by omega) (by omega) (by omega) (by omega)

theorem insert_before (h : Stored s span f t v) (hne : f < t) (hp : p < f)
    (hnear : f - p ≤ p + 65536 - t) (ht : t < p + 65536) :
    Stored (s.insert (seqAt p) pkt) (span.stretch (seqAt p)) p t (storeAt f t v p pkt) := by
  have hstretch : span.stretch (seqAt p) = .between p t := by
    rw [h.span_eq, Span.stretch, Span.locate_before hp hne hnear (by omega)]
    rfl
  rw [hstretch]
  exact h.insert (by omega) (Nat.le_refl _) (Nat.le_refl _) (by omega) ht

/-- The first packet of all. -/
theorem insert_empty : Stored (Slots.empty.insert (seqAt p) pkt) (Span.empty.stretch (seqAt p))
    p (p + 1) (storeAt p p (fun _ => none) p pkt) := by
  have hstretch : Span.empty.stretch (seqAt p) = .between p (p + 1) := by
    rw [Span.between, ← seqAt_add_one]
    rfl
  have hnone : Stored Slots.empty (.between p p) p p (fun _ => none) :=
    ⟨rfl, Nat.le_refl _, by omega, fun q _ _ => by simp⟩
  rw [hstretch]
  exact hnone.insert (Nat.le_refl _) (by omega) (Nat.le_refl _) (by omega) (by omega)

end Stored

/-! ## Making room -/

namespace Assembler

variable {a : Assembler} {span : Span} {within : Bool}

@[simp] theorem dropOldest_active (a : Assembler) : a.dropOldest.active = a.active := rfl

@[simp] theorem dropOldest_codec (a : Assembler) : a.dropOldest.codec = a.codec := rfl

@[simp] theorem dropOldest_ready (a : Assembler) : a.dropOldest.ready = a.ready := rfl

theorem release_eq_or (a : Assembler) (span : Span) (within : Bool) :
    a.release span within = a ∨ a.release span within = a.dropOldest := by
  unfold release
  split
  · exact .inl rfl
  · split
    · exact .inr rfl
    · split
      · exact .inr rfl
      · exact .inl rfl
    · exact .inl rfl

/-- An empty span has nothing before it. -/
theorem release_empty (a : Assembler) (c : Nat) (within : Bool) :
    a.release (.between c c) within = a := by
  unfold release
  rw [Span.locate_empty]
  split <;> rfl

@[simp] theorem release_active (a : Assembler) (span : Span) (within : Bool) :
    (a.release span within).active = a.active := by
  rcases a.release_eq_or span within with h | h <;> simp [h]

@[simp] theorem release_codec (a : Assembler) (span : Span) (within : Bool) :
    (a.release span within).codec = a.codec := by
  rcases a.release_eq_or span within with h | h <;> simp [h]

@[simp] theorem release_ready (a : Assembler) (span : Span) (within : Bool) :
    (a.release span within).ready = a.ready := by
  rcases a.release_eq_or span within with h | h <;> simp [h]

end Assembler

namespace Stored

variable {a : Assembler} {f t c u e : Nat} {v : Nat → Option Packet}

/-- No slot inside of the span is freed. -/
theorem release_inside (h : Stored a.slots a.filled f t v) (hc : c ≤ f) (ht : t < c + 65536) :
    a.release (.between c t) false = a := by
  have hhead : a.filled.head = seqAt f := by rw [h.span_eq]; rfl
  unfold Assembler.release
  rw [hhead, h.span_eq, Span.isEmpty_between h.le h.short]
  rcases Nat.eq_or_lt_of_le h.le with rfl | hlt
  · simp
  · rw [Span.locate_inside hc hlt ht]
    simp

/-- Before the active span at most one slot is freed, and none if nothing is active. -/
theorem release_active (h : Stored a.slots a.filled f t v) (hf : f ≤ c) (hc : c ≤ u) (hu : u ≤ t) :
    ∃ f', f ≤ f' ∧ f' ≤ c ∧ (c = u → f' = f) ∧ Stored (a.release (.between c u) false).slots
      (a.release (.between c u) false).filled f' t v := by
  have hshort := h.short
  have hhead : a.filled.head = seqAt f := by rw [h.span_eq]; rfl
  rcases Nat.eq_or_lt_of_le hc with rfl | hcu
  · exact ⟨f, Nat.le_refl _, hf, fun _ => rfl, by rw [a.release_empty]; exact h⟩
  · rcases Nat.eq_or_lt_of_le hf with rfl | hlt
    · -- The oldest slot is inside of the span.
      have hkeep : a.release (.between f u) false = a := by
        unfold Assembler.release
        rw [hhead, Span.locate_inside (Nat.le_refl _) hcu (by omega)]
        split <;> rfl
      exact ⟨f, Nat.le_refl _, Nat.le_refl _, fun _ => rfl, by rw [hkeep]; exact h⟩
    · rcases a.release_eq_or (.between c u) false with hkeep | hdrop
      · exact ⟨f, Nat.le_refl _, hf, fun _ => rfl, by rw [hkeep]; exact h⟩
      · exact ⟨f + 1, by omega, by omega, by omega, by rw [hdrop]; exact h.erase (by omega)⟩

/-- Releasing a sample frees its first slot if nothing older is stored, else at most an older
one. -/
theorem release_within (h : Stored a.slots a.filled f t v) (hf : f ≤ c) (hc : c < e) (he : e ≤ t) :
    ∃ f', f ≤ f' ∧ (f < c → f' ≤ c) ∧ (f = c → f' = c + 1) ∧
      Stored (a.release (.between c e) true).slots
        (a.release (.between c e) true).filled f' t v := by
  rcases Nat.lt_or_ge f c with hlt | hge
  · -- Whether an older slot goes does not matter: it lies before the sample either way.
    rcases a.release_eq_or (.between c e) true with hkeep | hdrop
    · exact ⟨f, Nat.le_refl _, by omega, by omega, by rw [hkeep]; exact h⟩
    · exact ⟨f + 1, by omega, by omega, by omega, by rw [hdrop]; exact h.erase (by omega)⟩
  · obtain rfl : f = c := Nat.le_antisymm hf hge
    have hshort := h.short
    have hdrop : a.release (.between f e) true = a.dropOldest := by
      have hhead : a.filled.head = seqAt f := by rw [h.span_eq]; rfl
      have hempty : a.filled.isEmpty = false := by
        rw [h.span_eq, Span.isEmpty_between h.le hshort]
        simpa using (by omega : f ≠ t)
      unfold Assembler.release
      rw [hempty, hhead, Span.locate_inside (Nat.le_refl _) hc (by omega)]
      rfl
    exact ⟨f + 1, by omega, by omega, fun _ => rfl, by rw [hdrop]; exact h.erase (by omega)⟩

end Stored

end Headend.Rtp
