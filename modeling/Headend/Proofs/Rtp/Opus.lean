import Headend.Proofs.Rtp.Push

/-!
# Samples of Opus packets

Every Opus packet is a sample of its own, so an assembler of them is told by four things: the range
of positions stored, the position `c` that the next sample is cut at, and the packets stored.
Whatever happens, the packets that lie between two values of `c` are those that became samples
meanwhile.
-/

namespace Headend.Rtp

variable {f t c c' u : Nat} {v : Nat → Option Packet}

/-- The payloads stored from `c` up to and without `c'`. -/
def payloads (v : Nat → Option Packet) (c c' : Nat) : List Bytes :=
  ((List.range' c (c' - c)).filterMap v).map (·.payload)

theorem payloads_self : payloads v c c = [] := by
  simp [payloads]

theorem payloads_append {d : Nat} (hc : c ≤ c') (hd : c' ≤ d) :
    payloads v c c' ++ payloads v c' d = payloads v c d := by
  have hsplit : List.range' c (d - c) = List.range' c (c' - c) ++ List.range' c' (d - c') := by
    have := List.range'_append_1 (s := c) (m := c' - c) (n := d - c')
    rw [show c + (c' - c) = c' by omega, show c' - c + (d - c') = d - c by omega] at this
    exact this.symm
  simp [payloads, hsplit]

theorem payloads_succ : payloads v c (c + 1) = (v c).toList.map (·.payload) := by
  cases hv : v c <;> simp [payloads, hv]

theorem length_payloads_le (v : Nat → Option Packet) (c c' : Nat) :
    (payloads v c c').length ≤ c' - c := by
  have := List.length_filterMap_le v (List.range' c (c' - c))
  simpa [payloads] using this

/-- What is cut comes before what is cut later. -/
theorem payloads_cons {p : Packet} (hp : v c = some p) (hc' : c + 1 ≤ c') :
    p.payload :: payloads v (c + 1) c' = payloads v c c' := by
  rw [← payloads_append (Nat.le_succ c) hc', payloads_succ, hp]
  rfl

/-- No packet of the range is missing. -/
theorem payloads_of_some {pk : Nat → Packet} {n : Nat}
    (h : ∀ j, c ≤ j → j < c + n → v j = some (pk j)) :
    payloads v c (c + n) = (List.range' c n).map fun j => (pk j).payload := by
  induction n generalizing c with
  | zero => exact payloads_self
  | succ n ih =>
    have hfirst : v c = some (pk c) := h c (Nat.le_refl _) (by omega)
    rw [← payloads_cons hfirst (by omega), show c + (n + 1) = c + 1 + n by omega,
      ih fun j hj hjn => h j (by omega) (by omega), List.range'_succ]
    rfl

namespace Assembler

namespace Standing

variable {a : Assembler} {p : Packet} {purging : Bool}

/-- The packet at the cut is a sample. -/
theorem next?_opus (h : Standing .opus a f c t v) (hact : a.active = .between c t)
    (hp : v c = some p) : a.next? = some (p, .between c (c + 1)) := by
  have hlt := h.lt
  have hscan : a.scan p.timestamp 65536 (seqAt c) = some (.between c (c + 1)) := by
    refine scan_eq_some h.stored hact h.le (Nat.le_refl _) (by omega) (by omega) ?_ (by omega)
    intro j hj hj'
    obtain rfl : j = c := by omega
    exact ⟨p, hp, rfl, by simp [h.codec, Depacketizer.isTail]⟩
  rw [next?_eq h.stored hact h.le hlt hp, hscan]
  rfl

theorem build_gap {codec : Depacketizer} (h : Standing codec a f c t v) (hp : v c = none) :
    a.build purging = (a.extend, false) := by
  obtain ⟨hext, hact, -⟩ := h.extend
  rw [h.build_eq, next?_eq_none hext.stored hact h.le h.lt hp]

/-- A sample waits for the packet after it. -/
theorem build_alone (h : Standing .opus a f c t v) (hnext : c + 1 < t → v (c + 1) = none) :
    a.build false = (a.extend, false) := by
  have hshort := h.stored.short
  have hle := h.le
  have hlt := h.lt
  obtain ⟨hext, hact, -⟩ := h.extend
  cases hp : v c with
  | none => exact h.build_gap hp
  | some p =>
    have hslot : a.extend.slots.get? (seqAt (c + 1)) = none := by
      rcases Nat.lt_or_ge (c + 1) t with hlt' | hge
      · rw [hext.stored.get?_of_lt (by omega) hlt', hnext hlt']
      · exact hext.stored.get?_of_ge hge (by omega)
    rw [h.build_eq, hext.next?_opus hact hp]
    simp [Slots.has, hslot]

end Standing

/-- An assembler of Opus packets. -/
structure Poised (a : Assembler) (f c t : Nat) (v : Nat → Option Packet) : Prop
    extends Standing .opus a f c t v where
  payload : ∀ j p, v j = some p → p.payload ≠ []

namespace Poised

variable {a : Assembler} {p : Packet} {purging : Bool}

theorem setReady (h : Poised a f c t v) (ready : List Sample) :
    Poised { a with ready := ready } f c t v :=
  ⟨h.toStanding.setReady ready, h.payload⟩

theorem extend (h : Poised a f c t v) : Poised a.extend f c t v ∧ a.extend.active = .between c t ∧
    a.extend.ready = a.ready := by
  obtain ⟨hext, hact, hready⟩ := h.toStanding.extend
  exact ⟨⟨hext, h.payload⟩, hact, hready⟩

/-! ## Cutting -/

/-- A sample is cut once the packet after it is there, and without waiting for it by a purge. -/
theorem build_cut (h : Poised a f c t v) (purging : Bool) (hp : v c = some p) (hlt : c + 1 < t)
    (hnext : purging = true ∨ v (c + 1) ≠ none) :
    ∃ r f' s, a.build purging = (r, true) ∧ Poised r f' (c + 1) t v ∧ f ≤ f' ∧
      (f = c → f' = c + 1) ∧ r.ready = a.ready ++ [s] ∧ s.data = p.payload ∧
      s.nanos = elapsedNanos Codec.Opus.clockRate p.timestamp
        (a.extend.endOf p (.between c (c + 1))) := by
  have hshort := h.stored.short
  have hle := h.le
  obtain ⟨hext, hact, hready⟩ := h.extend
  have hgo : (!purging && !a.extend.slots.has (seqAt (c + 1))) = false := by
    rcases hnext with rfl | hnext
    · rfl
    · obtain ⟨q, hq⟩ := Option.ne_none_iff_exists'.1 hnext
      simp [Slots.has, hext.stored.get?_of_lt (by omega) hlt, hq]
  have hjoin : a.extend.codec.join (a.extend.slots.run (c + 1 - c) (seqAt c)) [] =
      (.opus, some p.payload) := by
    have hpayload := h.payload c p hp
    rw [hext.codec, Nat.add_sub_cancel_left, run_eq hext.stored (fun _ => p) hle (by omega)
      (fun j hj hj' => by rw [show j = c by omega, hp])]
    simp [Depacketizer.join, Depacketizer.depacketize, Codec.Opus.depacketize, hpayload]
  obtain ⟨f', r, htake, hstored, hract, hff', hf', hfirst, -, hcodec, hrready⟩ :=
    take_spec p hext.stored hact hle (Nat.lt_succ_self c) (by omega) hjoin
  refine ⟨r, f', _, ?_, ⟨⟨hcodec, hstored, hf', ⟨t, hract, hlt, Nat.le_refl _⟩⟩, h.payload⟩, hff',
    fun heq => by have := hfirst heq; omega, by rw [hrready, hready], rfl, by rw [hext.codec]; rfl⟩
  rw [h.build_eq, hext.next?_opus hact hp]
  simp only [Span.between_tail, hgo, Bool.false_eq_true, if_false]
  simp [hext.codec, Depacketizer.isHead, htake]

/-! ## Purging -/

theorem purgeOldest (h : Poised a f c t v) (hwidth : f + 1 < t) :
    ∃ c', Poised a.purgeOldest (f + 1) c' t v ∧ c ≤ c' ∧
      a.purgeOldest.ready.map (·.data) = a.ready.map (·.data) ++ payloads v c c' := by
  rcases Nat.lt_or_ge f c with hlt | hge
  · obtain ⟨hdrop, hready⟩ := h.toStanding.purgeOldest_of_lt hlt
    exact ⟨c, ⟨hdrop, h.payload⟩, Nat.le_refl _, by simp [hready, payloads_self]⟩
  · obtain rfl : f = c := Nat.le_antisymm h.le hge
    refine ⟨f + 1, ?_⟩
    rw [h.toStanding.purgeOldest_of_eq, payloads_succ]
    cases hp : v f with
    | none =>
      -- The slot is empty: the cut moves on, and nothing is ready for it.
      obtain ⟨hext, hact, hready⟩ := h.extend
      rw [h.build_gap hp]
      refine ⟨⟨⟨hext.codec, hext.stored.erase (by omega), Nat.le_refl _, ⟨t, ?_, hwidth,
        Nat.le_refl _⟩⟩, h.payload⟩, by omega, ?_⟩
      · change ({ a.extend.active with head := a.extend.active.head + 1 } : Span) = _
        rw [hact, Span.between_succ]
      · change a.extend.ready.map _ = _
        simp [hready]
    | some p =>
      obtain ⟨r, f', s, hbuild, hr, -, hf', hready, hs, -⟩ :=
        h.build_cut true hp hwidth (.inl rfl)
      obtain rfl := hf' rfl
      rw [hbuild]
      exact ⟨hr, by omega, by simp [hready, hs]⟩

/-- Purging ends with at most `depth` positions stored. -/
theorem purge (h : Poised a f c t v) (fuel : Nat) (hwidth : t - f < 65536 - depth)
    (hfuel : t - f ≤ fuel + depth) :
    ∃ f' c', Poised (purge fuel a) f' c' t v ∧ f ≤ f' ∧ t - f' ≤ depth ∧ c ≤ c' ∧
      (purge fuel a).ready.map (·.data) = a.ready.map (·.data) ++ payloads v c c' := by
  induction fuel generalizing a f c with
  | zero => exact ⟨f, c, h, by omega, by omega, by omega, by simp [Assembler.purge, payloads_self]⟩
  | succ fuel ih =>
    by_cases hdepth : t - f ≤ depth
    · rw [purge_eq_self h.stored hdepth]
      exact ⟨f, c, h, by omega, hdepth, by omega, by simp [payloads_self]⟩
    · -- Each round frees one position, and the packets it cuts are those the cut passes.
      have hone : 1 ≤ depth := by decide
      obtain ⟨c₁, h₁, hc₁, hready₁⟩ := h.purgeOldest (by omega)
      obtain ⟨f', c', h', hf', hdepth', hc', hready⟩ := ih h₁ (by omega) (by omega)
      rw [purge_eq_purge h.stored (by omega) hwidth]
      refine ⟨f', c', h', by omega, hdepth', by omega, ?_⟩
      rw [hready, hready₁, List.append_assoc, payloads_append hc₁ hc']

/-! ## Pushing -/

theorem release (h : Poised a f c t v) :
    ∃ f', Poised (a.release a.active false) f' c t v ∧ f ≤ f' := by
  obtain ⟨f', hrel, hf'⟩ := h.toStanding.release
  exact ⟨f', ⟨hrel, h.payload⟩, hf'⟩

theorem store (h : Poised a f c t v) {f' t' q : Nat} (hf' : f' ≤ f) (ht' : t ≤ t')
    (hp : p.payload ≠ []) (hstored : Stored (a.slots.insert p.sequence p)
      (a.filled.stretch p.sequence) f' t' (storeAt f t v q p)) :
    Poised (a.store p) f' c t' (storeAt f t v q p) := by
  refine ⟨h.toStanding.store hf' ht' hstored, fun j pj hj => ?_⟩
  rcases of_storeAt_eq_some hj with rfl | hj
  · exact hp
  · exact h.payload j pj hj

/-- A packet is stored within half a circle, and the packets cut by making room are those between
the old cut and the new one. -/
theorem push (h : Poised a f c t v) (hwidth : t - f ≤ depth) (hbase : 65536 ≤ f)
    (hready : a.ready = []) (hp : p.payload ≠ []) :
    ∃ q f' c', seqAt q = p.sequence ∧ q ≤ t + 32767 ∧
      Poised (a.push p) f' c' (max t (q + 1)) (storeAt f t v q p) ∧
      max t (q + 1) - f' ≤ depth ∧ max t (q + 1) - c < 65536 ∧ c ≤ c' ∧
      (a.push p).ready.map (·.data) = payloads (storeAt f t v q p) c c' := by
  have hle := h.le
  have hlt := h.lt
  obtain ⟨q, f₁, t₁, hq, hstored, hf₁, hf₁q, hqt, rfl, hwidth₁⟩ :=
    h.stored.place p (by omega) hwidth hbase p.sequence
  have hpoised := h.store hf₁ (by omega) hp hstored
  obtain ⟨f₂, h₂, hf₂⟩ := hpoised.release
  obtain ⟨f', c', h', -, hdepth, hc', hready'⟩ :=
    h₂.purge 65536 (by omega) (by omega)
  refine ⟨q, f', c', hq, hqt, h', hdepth, by omega, hc', ?_⟩
  rw [push_eq]
  change (Assembler.purge 65536 ((a.store p).release (a.store p).active false)).ready.map _ = _
  rw [hready', release_ready]
  simp [Assembler.store, hready]

/-- Nothing is purged as long as `depth` positions suffice. -/
theorem push_within (h : Poised a c c t v) {q : Nat} (hq : seqAt q = p.sequence) (hcq : c ≤ q)
    (hwidth : max t (q + 1) ≤ c + depth) (hp : p.payload ≠ []) :
    Poised (a.push p) c c (max t (q + 1)) (storeAt c t v q p) ∧ (a.push p).ready = a.ready := by
  have hlt := h.lt
  unfold depth at hwidth
  have hstored : Stored (a.slots.insert p.sequence p) (a.filled.stretch p.sequence) c
      (max t (q + 1)) (storeAt c t v q p) := by
    rw [← hq]
    rcases Nat.lt_or_ge q t with hqt | hge
    · rw [Nat.max_eq_left (by omega)]
      exact h.stored.insert_inside hcq hqt
    · rw [Nat.max_eq_right (by omega)]
      exact h.stored.insert_after hlt hge (by omega) (by omega)
  have hpoised := h.store (Nat.le_refl _) (by omega) hp hstored
  obtain ⟨f', h', hf'⟩ := hpoised.release
  obtain rfl : f' = c := Nat.le_antisymm h'.le hf'
  have hpush : a.push p = (a.store p).release a.active false := by
    rw [push_eq]
    exact purge_eq_self h'.stored (by unfold depth; omega)
  rw [hpush]
  exact ⟨h', by rw [release_ready]; rfl⟩

/-- The first packet of all. -/
theorem first {q : Nat} (hq : seqAt q = p.sequence) (hp : p.payload ≠ []) :
    Poised ((new .opus).push p).activate q q (q + 1) (storeAt q q (fun _ => none) q p) ∧
      ((new .opus).push p).activate.ready = [] := by
  obtain ⟨hfirst, hready⟩ := Standing.first .opus hq
  refine ⟨⟨hfirst, fun j p' hj => ?_⟩, hready⟩
  rcases of_storeAt_eq_some hj with rfl | hj
  · exact hp
  · cases hj

/-! ## Draining -/

/-- Draining cuts every sample whose next packet is there, up to the first one whose is not. -/
theorem drains (h : Poised a f c t v) :
    ∃ ss b f' c', Drains a ss b ∧ Poised b f' c' t v ∧ b.ready = [] ∧ f ≤ f' ∧ c ≤ c' ∧
      (f = c → f' = c') ∧ ss.map (·.data) = a.ready.map (·.data) ++ payloads v c c' ∧
      (∀ j, c ≤ j → j < c' → v j ≠ none ∧ v (j + 1) ≠ none) ∧
      (v c' ≠ none → c' + 1 < t → v (c' + 1) = none) := by
  -- Each pop moves the cut or shortens the queue.
  induction hn : t - c + a.ready.length generalizing a f c with
  | zero =>
    have := h.lt
    omega
  | succ n ih =>
    by_cases hcut : v c ≠ none ∧ c + 1 < t ∧ v (c + 1) ≠ none
    · -- The packet at the cut and the one after it are there: one sample more is ready.
      obtain ⟨hp, hlt, hnext⟩ := hcut
      obtain ⟨p, hp⟩ := Option.ne_none_iff_exists'.1 hp
      obtain ⟨r, f₁, s, hbuild, hr, hf₁, hfirst, hready, hs, -⟩ :=
        h.build_cut false hp hlt (.inr hnext)
      obtain ⟨s₀, rest, hrest⟩ : ∃ s₀ rest, r.ready = s₀ :: rest := by
        rw [hready]
        exact List.exists_cons_of_ne_nil (by simp)
      have hlen : r.ready.length = a.ready.length + 1 := by simp [hready]
      obtain ⟨ss, b, f', c', hdrains, hb, hbready, hf', hc', heq, hdata, hall, hstop⟩ :=
        ih (hr.setReady rest) (by simp only [hrest, List.length_cons] at hlen ⊢; omega)
      refine ⟨s₀ :: ss, b, f', c', .next (pop_eq_some hbuild hrest) hdrains, hb, hbready, by omega,
        by omega, fun hfc => heq (hfirst hfc), ?_, ?_, hstop⟩
      · have hcons : a.ready.map (·.data) ++ [p.payload] = s₀.data :: rest.map (·.data) := by
          rw [← hs, ← List.map_cons, ← hrest, hready]
          simp
        rw [List.map_cons, hdata, ← payloads_cons hp hc', ← List.cons_append, ← hcons]
        simp
      · intro j hj hj'
        rcases Nat.eq_or_lt_of_le hj with rfl | hlt'
        · exact ⟨by simp [hp], hnext⟩
        · exact hall j hlt' hj'
    · -- The cut stays, and what is ready comes out.
      have hbuild : a.build false = (a.extend, false) := by
        cases hp : v c with
        | none => exact h.build_gap hp
        | some p =>
          exact h.build_alone fun hlt => Classical.byContradiction fun hne =>
            hcut ⟨by simp [hp], hlt, hne⟩
      obtain ⟨hext, -, hready⟩ := h.extend
      cases hr : a.ready with
      | nil =>
        refine ⟨[], a.extend, f, c, .done (pop_eq_none hbuild (by rw [hready, hr])), hext,
          by rw [hready, hr], by omega, by omega, id, by simp [payloads_self],
          fun j hj hj' => by omega, fun hp hlt => Classical.byContradiction fun hne =>
            hcut ⟨hp, hlt, hne⟩⟩
      | cons s₀ rest =>
        obtain ⟨ss, b, f', c', hdrains, hb, hbready, hf', hc', heq, hdata, hall, hstop⟩ :=
          ih (hext.setReady rest) (by simp only [hr, List.length_cons] at hn ⊢; omega)
        exact ⟨s₀ :: ss, b, f', c', .next (pop_eq_some hbuild (by rw [hready, hr])) hdrains, hb,
          hbready, hf', hc', heq, by simp [hdata], hall, hstop⟩

end Poised

end Assembler

end Headend.Rtp
