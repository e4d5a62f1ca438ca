import Headend.Proofs.Rtp.Build

/-!
# Pushing by position

A packet that comes in is stored at the position nearest to what is stored already. If the stored
range is then wider than `depth`, purging frees its oldest slot until it is not.
-/

namespace Headend.Rtp

variable {f t c u : Nat} {v : Nat → Option Packet}

namespace Stored

variable {s : Slots} {span : Span}

/-- Where a packet goes: inside of what is stored, or behind it, or before it, and no farther away
than half a circle. -/
theorem place (h : Stored s span f t v) (pkt : Packet) (hne : f < t)
    (hwidth : t - f ≤ Assembler.depth)
    (hbase : 65536 ≤ f) (n : UInt16) :
    ∃ p f' t', seqAt p = n ∧ Stored (s.insert n pkt) (span.stretch n) f' t' (storeAt f t v p pkt) ∧
      f' ≤ f ∧ f' ≤ p ∧ p ≤ t + 32767 ∧ t' = max t (p + 1) ∧ t' - f' < 65536 - Assembler.depth := by
  unfold Assembler.depth at hwidth ⊢
  obtain ⟨p, hfp, hp, rfl⟩ := exists_seqAt n f
  rcases Nat.lt_or_ge p t with hlt | hge
  · exact ⟨p, f, t, rfl, h.insert_inside hfp hlt, by omega, hfp, by omega, by omega, by omega⟩
  · by_cases hnear : p - t < f + 65536 - p
    · exact ⟨p, f, p + 1, rfl, h.insert_after hne hge hnear (by omega), by omega, hfp, by omega,
        by omega, by omega⟩
    · -- Half a circle ahead or more is less than half a circle behind.
      have hwrap : seqAt (p - 65536) = seqAt p := by
        rw [← seqAt_add_circle, Nat.sub_add_cancel (by omega)]
      refine ⟨p - 65536, p - 65536, t, hwrap, ?_, by omega, by omega, by omega, by omega, by omega⟩
      rw [← hwrap]
      exact h.insert_before hne (by omega) (by omega) (by omega)

end Stored

namespace Assembler

variable {a : Assembler} {fuel : Nat}

/-- A packet put into its slot. -/
def store (a : Assembler) (p : Packet) : Assembler :=
  { a with
    slots := a.slots.insert p.sequence p
    filled := a.filled.stretch p.sequence }

theorem push_eq (a : Assembler) (p : Packet) :
    a.push p = purge 65536 ((a.store p).release a.active false) := rfl

theorem purge_eq_self (h : Stored a.slots a.filled f t v) (hwidth : t - f ≤ depth) :
    purge fuel a = a := by
  have hcount : ¬ a.filled.count > depth := by
    rw [h.span_eq, Span.count_between h.le h.short]
    omega
  cases fuel with
  | zero => rfl
  | succ fuel => simp [purge, hcount]

theorem purge_eq_purge (h : Stored a.slots a.filled f t v) (hwidth : depth < t - f)
    (hwidth' : t - f < 65536 - depth) : purge (fuel + 1) a = purge fuel a.purgeOldest := by
  have hcount : a.filled.count > depth := by
    rw [h.span_eq, Span.count_between h.le h.short]
    omega
  have hempty : a.filled.isEmpty = false := by
    rw [h.span_eq, Span.isEmpty_between h.le h.short]
    simpa using (by omega : f ≠ t)
  simp [purge, hcount, hempty]

/-- What lies before the active span goes without a trace. -/
theorem purgeOldest_of_lt (h : Stored a.slots a.filled f t v) (hact : a.active = .between c u)
    (hf : f < c) (hcu : c < u) (hu : u ≤ t) : a.purgeOldest = a.dropOldest := by
  have hshort := h.short
  have hne : (a.active.head == a.filled.head) = false := by
    rw [hact, h.span_eq]
    simpa using fun heq : seqAt c = seqAt f => by
      have := seqAt_inj (by omega) (by omega) heq.symm
      omega
  unfold purgeOldest
  rw [activate_eq hact hcu (by omega)]
  simp [hne]

theorem purgeOldest_of_eq (h : Stored a.slots a.filled c t v) (hact : a.active = .between c u)
    (hcu : c < u) (hu : u ≤ t) : a.purgeOldest =
      if (a.build true).2 then (a.build true).1
      else { (a.build true).1 with active := { (a.build true).1.active with
        head := (a.build true).1.active.head + 1 } }.dropOldest := by
  have hshort := h.short
  have heq : (a.active.head == a.filled.head) = true := by
    rw [hact, h.span_eq]
    simp
  have hempty : a.active.isEmpty = false := by
    rw [hact, Span.isEmpty_between (by omega) (by omega)]
    simpa using (by omega : c ≠ u)
  unfold purgeOldest
  rw [activate_eq hact hcu (by omega)]
  simp only [heq, hempty]
  rcases hbuild : a.build true with ⟨b, made⟩
  cases made <;> rfl

/-- The first packet of all is all there is. -/
theorem push_new (codec : Depacketizer) {p : Packet} {q : Nat} (hq : seqAt q = p.sequence) :
    (new codec).push p = (new codec).store p ∧ Stored ((new codec).store p).slots
      ((new codec).store p).filled q (q + 1) (storeAt q q (fun _ => none) q p) := by
  have hstored : Stored ((new codec).store p).slots ((new codec).store p).filled q (q + 1)
      (storeAt q q (fun _ => none) q p) := by
    simpa only [store, new, ← hq] using Stored.insert_empty
  have hrelease : ((new codec).store p).release (new codec).active false = (new codec).store p :=
    release_empty _ 0 false
  refine ⟨?_, hstored⟩
  rw [push_eq, hrelease]
  exact purge_eq_self hstored (by rw [Nat.add_sub_cancel_left]; decide)

/-! ## Standing -/

/-- Where an assembler stands: it stores the positions from `f` to `t` and cuts next at `c`. -/
structure Standing (codec : Depacketizer) (a : Assembler) (f c t : Nat) (v : Nat → Option Packet) :
    Prop where
  codec : a.codec = codec
  stored : Stored a.slots a.filled f t v
  le : f ≤ c
  active : ∃ u, a.active = .between c u ∧ c < u ∧ u ≤ t

namespace Standing

variable {codec : Depacketizer} {w : Nat → Option Packet} {p : Packet}

theorem lt (h : Standing codec a f c t v) : c < t := by
  obtain ⟨u, -, hcu, hut⟩ := h.active
  omega

theorem setReady (h : Standing codec a f c t v) (ready : List Sample) :
    Standing codec { a with ready := ready } f c t v :=
  ⟨h.codec, h.stored, h.le, h.active⟩

theorem congr (h : Standing codec a f c t v) (hvw : ∀ q, f ≤ q → q < t → v q = w q) :
    Standing codec a f c t w :=
  ⟨h.codec, h.stored.congr hvw, h.le, h.active⟩

theorem extend (h : Standing codec a f c t v) : Standing codec a.extend f c t v ∧
    a.extend.active = .between c t ∧ a.extend.ready = a.ready := by
  obtain ⟨u, hact, hcu, hut⟩ := h.active
  rw [extend_eq h.stored hact h.le hcu hut]
  exact ⟨⟨h.codec, h.stored, h.le, ⟨t, rfl, h.lt, Nat.le_refl _⟩⟩, rfl, rfl⟩

theorem release (h : Standing codec a f c t v) :
    ∃ f', Standing codec (a.release a.active false) f' c t v ∧ f ≤ f' := by
  obtain ⟨u, hact, hcu, hut⟩ := h.active
  obtain ⟨f', hff', hf'c, -, hstored⟩ := h.stored.release_active h.le (Nat.le_of_lt hcu) hut
  rw [hact]
  exact ⟨f', ⟨by simp [h.codec], hstored, hf'c, ⟨u, by simp [hact], hcu, hut⟩⟩, hff'⟩

theorem store (h : Standing codec a f c t v) {f' t' q : Nat} (hf' : f' ≤ f) (ht' : t ≤ t')
    (hstored : Stored (a.slots.insert p.sequence p) (a.filled.stretch p.sequence) f' t'
      (storeAt f t v q p)) : Standing codec (a.store p) f' c t' (storeAt f t v q p) := by
  obtain ⟨u, hact, hcu, hut⟩ := h.active
  exact ⟨h.codec, hstored, Nat.le_trans hf' h.le, ⟨u, hact, hcu, Nat.le_trans hut ht'⟩⟩

/-- After the first packet, everything stored is active. -/
theorem first (codec : Depacketizer) {q : Nat} (hq : seqAt q = p.sequence) :
    Standing codec ((new codec).push p).activate q q (q + 1) (storeAt q q (fun _ => none) q p) ∧
      ((new codec).push p).activate.ready = [] := by
  obtain ⟨hpush, hstored⟩ := push_new codec hq
  have hactivate : ((new codec).store p).activate =
      { (new codec).store p with active := ((new codec).store p).filled } := rfl
  rw [hpush, hactivate]
  exact ⟨⟨rfl, hstored, Nat.le_refl _, ⟨q + 1, hstored.span_eq, Nat.lt_succ_self q, Nat.le_refl _⟩⟩,
    rfl⟩

/-- `build_eq`, where the active span is known to begin at the cut. -/
theorem build_eq (h : Standing codec a f c t v) (purging : Bool) : a.build purging =
    match a.extend.next? with
    | none => (a.extend, false)
    | some (first, span) =>
      if !purging && !a.extend.slots.has span.tail then (a.extend, false)
      else if a.extend.codec.isHead first.payload then a.extend.take first span
      else (a.extend.skip span, false) := by
  obtain ⟨u, hact, hcu, hut⟩ := h.active
  have hshort := h.stored.short
  have hle := h.le
  exact Assembler.build_eq purging hact hcu (by omega)

/-- One round of a purge at the cut. -/
theorem purgeOldest_of_eq (h : Standing codec a c c t v) : a.purgeOldest =
    if (a.build true).2 then (a.build true).1
    else { (a.build true).1 with active := { (a.build true).1.active with
      head := (a.build true).1.active.head + 1 } }.dropOldest := by
  obtain ⟨u, hact, hcu, hut⟩ := h.active
  exact Assembler.purgeOldest_of_eq h.stored hact hcu hut

/-- One round of a purge before the cut. -/
theorem purgeOldest_of_lt (h : Standing codec a f c t v) (hf : f < c) :
    Standing codec a.purgeOldest (f + 1) c t v ∧ a.purgeOldest.ready = a.ready := by
  obtain ⟨u, hact, hcu, hut⟩ := h.active
  have hlt := h.lt
  rw [Assembler.purgeOldest_of_lt h.stored hact hf hcu hut]
  exact ⟨⟨h.codec, h.stored.erase (by omega), hf, ⟨u, hact, hcu, hut⟩⟩, rfl⟩

/-- As long as what is not cut yet is no wider than `depth`, a purge does not touch it. -/
theorem purge_before (h : Standing codec a f c t v) (hwidth : t - c ≤ depth) (fuel : Nat)
    (hfuel : t - f ≤ fuel + depth) (hshort : t - f < 65536 - depth) :
    ∃ f', Standing codec (purge fuel a) f' c t v ∧ t - f' ≤ depth ∧
      (purge fuel a).ready = a.ready := by
  induction fuel generalizing a f with
  | zero => exact ⟨f, h, by omega, rfl⟩
  | succ fuel ih =>
    by_cases hdepth : t - f ≤ depth
    · rw [purge_eq_self h.stored hdepth]
      exact ⟨f, h, hdepth, rfl⟩
    · -- There are too many positions, so the oldest of them lies before the cut.
      obtain ⟨hdrop, hready⟩ := h.purgeOldest_of_lt (by omega)
      obtain ⟨f', h', hdepth', hready'⟩ := ih hdrop (by omega) (by omega)
      rw [purge_eq_purge h.stored (by omega) hshort]
      exact ⟨f', h', hdepth', by rw [hready', hready]⟩

/-- Once it is wider, a purge comes down to it. -/
theorem purge_reach (h : Standing codec a f c t v) (hwidth : depth < t - c) (fuel : Nat)
    (hfuel : t - f ≤ fuel + depth) (hshort : t - f < 65536 - depth) :
    ∃ b left, Standing codec b c c t v ∧ b.ready = a.ready ∧
      purge fuel a = purge left b.purgeOldest := by
  have hle := h.le
  induction fuel generalizing a f with
  | zero => omega
  | succ fuel ih =>
    rw [purge_eq_purge h.stored (by omega) hshort]
    rcases Nat.lt_or_ge f c with hlt | hge
    · obtain ⟨hdrop, hready⟩ := h.purgeOldest_of_lt hlt
      obtain ⟨b, left, hb, hready', hpurge⟩ := ih hdrop (by omega) (by omega) hlt
      exact ⟨b, left, hb, by rw [hready', hready], hpurge⟩
    · obtain rfl : f = c := Nat.le_antisymm hle hge
      exact ⟨a, fuel, h, rfl, rfl⟩

end Standing

end Assembler

end Headend.Rtp
