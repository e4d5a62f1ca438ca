import Headend.Proofs.Rtp.Push

/-!
# How many samples a packet gives

An assembler must come to an end with each packet, in whatever state it is and whatever packets came
before. The measure is the number of positions stored together with the samples that are ready: a
sample that is cut frees at least one slot, and nothing adds a position but storing a packet. Here
the active span can be anything at all, also one that wraps around; only the stored range is known.
-/

namespace Headend.Rtp

variable {a b : Assembler} {f f' t c e q : Nat} {v : Nat → Option Packet}

namespace Stored

variable {s : Slots} {span : Span}

/-- The same numbers, one circle later. -/
theorem circle (h : Stored s span f t v) :
    Stored s span (f + 65536) (t + 65536) fun p => v (p - 65536) := by
  have hle := h.le
  have hshort := h.short
  refine ⟨?_, by omega, by omega, fun p hp hp' => ?_⟩
  · rw [h.span_eq, Span.between, Span.between, seqAt_add_circle, seqAt_add_circle]
  · have hback : seqAt p = seqAt (p - 65536) := by
      rw [← seqAt_add_circle (p - 65536), Nat.sub_add_cancel (by omega)]
    rw [hback, h.slot (p - 65536) (by omega) (by omega)]
    simp only [Nat.sub_lt_iff_lt_add (show 65536 ≤ p by omega)]

/-- Wherever a packet goes, what is stored then is far from a full circle. If nothing was stored, it
is all there is. -/
theorem exists_storeAt (h : Stored s span f t v) (hwidth : t - f ≤ Assembler.depth)
    (hbase : 65536 ≤ f) (pkt : Packet) (n : UInt16) :
    ∃ q f' t', seqAt q = n ∧
      Stored (s.insert n pkt) (span.stretch n) f' t' (storeAt f t v q pkt) ∧ f' ≤ q ∧
      (f < t → f' ≤ f) ∧ (f < t ∧ t' = max t (q + 1) ∨ f = t ∧ t' = q + 1) ∧
      t' - f' < 65536 - Assembler.depth := by
  rcases Nat.eq_or_lt_of_le h.le with rfl | hlt
  · obtain ⟨q, hfq, hq, rfl⟩ := exists_seqAt n f
    have hnone : Stored s (.between q q) q q v := by
      refine ⟨rfl, Nat.le_refl _, by omega, fun j hj hj' => ?_⟩
      rw [if_neg (by omega)]
      rcases Nat.lt_or_ge j (f + 65536) with hjf | hjf
      · exact h.get?_of_ge (by omega) hjf
      · have hback : seqAt j = seqAt (j - 65536) := by
          rw [← seqAt_add_circle (j - 65536), Nat.sub_add_cancel (by omega)]
        rw [hback]
        exact h.get?_of_ge (by omega) (by omega)
    have hstretch : span.stretch (seqAt q) = .between q (q + 1) := by
      rw [h.span_eq, Span.stretch, Span.locate_empty, Span.between, seqAt_add_one]
      rfl
    have hinsert : Stored (s.insert (seqAt q) pkt) (.between q (q + 1)) q (q + 1)
        (storeAt q q v q pkt) :=
      hnone.insert (Nat.le_refl _) (by omega) (Nat.le_refl _) (by omega) (by omega)
    have hview : Stored (s.insert (seqAt q) pkt) (.between q (q + 1)) q (q + 1)
        (storeAt f f v q pkt) := hinsert.congr fun j hj hj' => by
      obtain rfl : j = q := by omega
      rw [storeAt_self, storeAt_self]
    rw [hstretch]
    exact ⟨q, q, q + 1, rfl, hview, Nat.le_refl _, by omega, .inr ⟨rfl, rfl⟩,
      by rw [Nat.add_sub_cancel_left]; decide⟩
  · obtain ⟨q, f', t', hq, hstored, hf', hf'q, -, ht', hshort⟩ := h.place pkt hlt hwidth hbase n
    exact ⟨q, f', t', hq, hstored, hf'q, fun _ => hf', .inl ⟨hlt, ht'⟩, hshort⟩

theorem exists_insert (h : Stored s span f t v) (hwidth : t - f ≤ Assembler.depth) (pkt : Packet)
    (n : UInt16) :
    ∃ f' t' w, Stored (s.insert n pkt) (span.stretch n) f' t' w ∧
      t' - f' < 65536 - Assembler.depth := by
  obtain ⟨q, f', t', -, hstored, -, -, -, hshort⟩ :=
    h.circle.exists_storeAt (by omega) (by omega) pkt n
  exact ⟨f', t', _, hstored, hshort⟩

end Stored

namespace Assembler

/-! ## Where a sample lies -/

/-- A scan goes over packets that are stored, and no farther. -/
theorem scan_range {ts : UInt32} {fuel : Nat} {span : Span} (h : Stored a.slots a.filled f t v)
    (hf : f ≤ q) (hq : q ≤ t) (hscan : a.scan ts fuel (seqAt q) = some span) :
    ∃ e, span = ⟨a.active.head, seqAt e⟩ ∧ q ≤ e ∧ e ≤ t ∧
      (e = q → ∀ p, a.slots.get? (seqAt q) = some p → p.timestamp ≠ ts) ∧
      ∀ j, q ≤ j → j < e → v j ≠ none := by
  have hshort := h.short
  induction fuel generalizing q with
  | zero => cases hscan
  | succ fuel ih =>
    rw [scan] at hscan
    cases hslot : a.slots.get? (seqAt q) with
    | none => simp [hslot] at hscan
    | some p =>
      have hqt : q < t := by
        rcases Nat.eq_or_lt_of_le hq with rfl | hlt
        · rw [h.get?_of_ge (Nat.le_refl _) hshort] at hslot
          cases hslot
        · exact hlt
      have hv : v q ≠ none := by
        rw [← h.get?_of_lt hf hqt, hslot]
        exact Option.some_ne_none p
      simp only [hslot] at hscan
      split at hscan
      · cases hscan
      · split at hscan
        · obtain rfl := Option.some.inj hscan
          refine ⟨q + 1, by rw [seqAt_add_one], by omega, hqt, by omega, fun j hqj hj => ?_⟩
          obtain rfl : j = q := by omega
          exact hv
        · split at hscan
          · rename_i hts
            obtain rfl := Option.some.inj hscan
            refine ⟨q, rfl, Nat.le_refl _, hq, fun _ p' hp' => ?_, by omega⟩
            cases hp'
            simpa using hts
          · rw [seqAt_add_one] at hscan
            obtain ⟨e, hspan, hqe, het, -, hall⟩ := ih (by omega) hqt hscan
            refine ⟨e, hspan, by omega, het, by omega, fun j hqj hj => ?_⟩
            rcases Nat.eq_or_lt_of_le hqj with rfl | hlt
            · exact hv
            · exact hall j hlt hj

/-- The next sample begins and ends within what is stored, and nothing of it is missing. -/
theorem next?_range {first : Packet} {span : Span} (h : Stored a.slots a.filled f t v)
    (hnext : a.next? = some (first, span)) :
    ∃ c e, a.active.head = seqAt c ∧ span = .between c e ∧ f ≤ c ∧ c < e ∧ e ≤ t ∧
      v c = some first ∧ ∀ j, c ≤ j → j < e → v j ≠ none := by
  rw [next?] at hnext
  cases hslot : a.slots.get? a.active.head with
  | none => simp [hslot] at hnext
  | some p =>
    cases hscan : a.scan p.timestamp 65536 a.active.head with
    | none => simp [hslot, hscan] at hnext
    | some found =>
      obtain ⟨rfl, rfl⟩ : p = first ∧ found = span := by simpa [hslot, hscan] using hnext
      obtain ⟨c, hfc, hc, hhead⟩ := exists_seqAt a.active.head f
      have hct : c < t := by
        rcases Nat.lt_or_ge c t with hlt | hge
        · exact hlt
        · rw [← hhead, h.get?_of_ge hge hc] at hslot
          cases hslot
      rw [← hhead] at hscan hslot
      obtain ⟨e, hspan, hce, het, hsame, hall⟩ := scan_range h hfc (Nat.le_of_lt hct) hscan
      have hne : e ≠ c := fun heq => hsame heq p hslot rfl
      exact ⟨c, e, hhead.symm, by rw [hspan, ← hhead]; rfl, hfc, by omega, het,
        by rw [← h.get?_of_lt hfc hct, hslot], hall⟩

/-! ## Freeing slots -/

/-- At most one slot is freed. -/
theorem release_stored (h : Stored a.slots a.filled f t v) (span : Span) (within : Bool) :
    ∃ f', f ≤ f' ∧ f' ≤ f + 1 ∧
      Stored (a.release span within).slots (a.release span within).filled f' t v := by
  rcases Nat.eq_or_lt_of_le h.le with rfl | hlt
  · have hempty : a.filled.isEmpty = true := by
      rw [h.span_eq, Span.isEmpty_between (Nat.le_refl _) (by omega), decide_eq_true rfl]
    have hkeep : a.release span within = a := by rw [release, if_pos hempty]
    exact ⟨f, Nat.le_refl _, by omega, by rw [hkeep]; exact h⟩
  · rcases a.release_eq_or span within with hkeep | hdrop
    · exact ⟨f, Nat.le_refl _, by omega, by rw [hkeep]; exact h⟩
    · exact ⟨f + 1, by omega, Nat.le_refl _, by rw [hdrop]; exact h.erase hlt⟩

/-- A sample takes the oldest slot with it, if that is its own first one or not far before it. -/
theorem release_drops (h : Stored a.slots a.filled f t v) (hf : f ≤ c) (hce : c < e) (het : e ≤ t)
    (hnear : f = c ∨ t - f ≤ 32768) : a.release (.between c e) true = a.dropOldest := by
  have hshort := h.short
  have hhead : a.filled.head = seqAt f := by rw [h.span_eq]; rfl
  have hempty : a.filled.isEmpty = false := by
    rw [h.span_eq, Span.isEmpty_between h.le hshort]
    simpa using (by omega : f ≠ t)
  rw [release, hempty, hhead]
  rcases Nat.eq_or_lt_of_le hf with rfl | hlt
  · rw [Span.locate_inside (Nat.le_refl _) hce (by omega)]
    rfl
  · rw [Span.locate_before hlt hce (by omega) (by omega)]
    rfl

/-- What cutting leaves of `a`: the range begins at `f'`, and what is ready and what is stored come
to no more than before. -/
structure Trims (a b : Assembler) (f t : Nat) (v : Nat → Option Packet) (f' : Nat) : Prop where
  stored : Stored b.slots b.filled f' t v
  le : f ≤ f'
  few : f' ≤ f + 2
  weight : b.ready.length + f ≤ a.ready.length + f'

/-- Nothing is cut. -/
theorem Trims.of_eq (h : Stored a.slots a.filled f t v) (hslots : b.slots = a.slots)
    (hfilled : b.filled = a.filled) (hready : b.ready = a.ready) : Trims a b f t v f :=
  ⟨by rwa [hslots, hfilled], Nat.le_refl _, by omega, Nat.le_of_eq (by rw [hready])⟩

theorem Trims.of_ready {a' : Assembler} (h : Trims a b f t v f') (hready : a.ready = a'.ready) :
    Trims a' b f t v f' :=
  ⟨h.stored, h.le, h.few, by rw [← hready]; exact h.weight⟩

theorem take_trims (first : Packet) (h : Stored a.slots a.filled f t v) (hf : f ≤ c) (hce : c < e)
    (het : e ≤ t) (hnear : f = c ∨ t - f ≤ 32768) :
    ∃ f', Trims a (a.take first (.between c e)).1 f t v f' ∧
      ((a.take first (.between c e)).2 = true → f < f') := by
  rcases hjoin : a.codec.join (a.slots.run (Span.between c e).width (Span.between c e).head) [] with
    ⟨codec, _ | data⟩
  · have htake : a.take first (.between c e) =
        ({ a with active := { a.active with head := seqAt e }, codec := codec }, false) := by
      simp only [take, hjoin, Span.between_tail]
    rw [htake]
    exact ⟨f, .of_eq h rfl rfl rfl, by simp⟩
  · -- The state once the sample is ready: its release frees one slot, and the next one at most one
    -- more.
    let b : Assembler := { a with
      active := { a.active with head := seqAt e }
      codec := codec
      ready := a.ready ++ [⟨data, elapsedNanos a.codec.clockRate first.timestamp
        (a.endOf first (.between c e))⟩] }
    have hb : Stored b.slots b.filled f t v := h
    have hdrop : b.release (.between c e) true = b.dropOldest := release_drops hb hf hce het hnear
    have htake : a.take first (.between c e) =
        (b.dropOldest.release b.dropOldest.active false, true) := by
      rw [← hdrop]
      simp only [take, hjoin, Span.between_tail]
      rfl
    obtain ⟨f', hf', hfew, hstored⟩ :=
      release_stored (a := b.dropOldest) (hb.erase (by omega)) b.dropOldest.active false
    have hready : (b.dropOldest.release b.dropOldest.active false).ready.length =
        a.ready.length + 1 := by simp [b]
    rw [htake]
    exact ⟨f', ⟨hstored, by omega, by omega, by dsimp only; omega⟩, fun _ => by omega⟩

theorem skip_trims (h : Stored a.slots a.filled f t v) (span : Span) :
    ∃ f', Trims a (a.skip span) f t v f' := by
  obtain ⟨f₁, hf₁, hfew₁, h₁⟩ := release_stored h span true
  obtain ⟨f₂, hf₂, hfew₂, h₂⟩ := release_stored h₁ (a.release span true).active false
  refine ⟨f₂, h₂, by omega, by omega, ?_⟩
  have hready : (a.skip span).ready = a.ready := by simp [skip]
  rw [hready]
  omega

theorem build_eq_ite (a : Assembler) (purging : Bool) : a.build purging =
    if a.activate.active.isEmpty then (a.activate, false) else
    match a.activate.extend.next? with
    | none => (a.activate.extend, false)
    | some (first, span) =>
      if !purging && !a.activate.extend.slots.has span.tail then (a.activate.extend, false)
      else if a.activate.extend.codec.isHead first.payload then a.activate.extend.take first span
      else (a.activate.extend.skip span, false) := rfl

theorem activate_keeps (a : Assembler) : a.activate.slots = a.slots ∧
    a.activate.filled = a.filled ∧ a.activate.ready = a.ready := by
  unfold activate
  split <;> exact ⟨rfl, rfl, rfl⟩

/-- Whatever is active: a sample that is built takes a slot with it. -/
theorem build_trims (h : Stored a.slots a.filled f t v)
    (hnear : a.activate.active.head = seqAt f ∨ t - f ≤ 32768) (purging : Bool) :
    ∃ f', Trims a (a.build purging).1 f t v f' ∧ ((a.build purging).2 = true → f < f') := by
  obtain ⟨hslots, hfilled, hready⟩ := a.activate_keeps
  obtain ⟨hslots', hfilled', hready', hhead⟩ : a.activate.extend.slots = a.slots ∧
      a.activate.extend.filled = a.filled ∧ a.activate.extend.ready = a.ready ∧
      a.activate.extend.active.head = a.activate.active.head := by
    unfold extend
    split <;> exact ⟨hslots, hfilled, hready, rfl⟩
  rw [build_eq_ite]
  generalize a.activate.extend = b at hslots' hfilled' hready' hhead ⊢
  have hb : Stored b.slots b.filled f t v := by rwa [hslots', hfilled']
  have hrest : Trims a b f t v f := .of_eq h hslots' hfilled' hready'
  split
  · exact ⟨f, .of_eq h hslots hfilled hready, by simp⟩
  · split
    · exact ⟨f, hrest, by simp⟩
    · rename_i first span hnext
      split
      · exact ⟨f, hrest, by simp⟩
      · split
        · obtain ⟨c, e, hc, rfl, hfc, hce, het, -⟩ := next?_range hb hnext
          have hshort := h.short
          have hnear' : f = c ∨ t - f ≤ 32768 := by
            refine hnear.imp_left fun heq => ?_
            exact seqAt_inj hfc (by omega) (by rw [← heq, ← hhead, hc])
          obtain ⟨f', htrims, hmade⟩ := take_trims first hb hfc hce het hnear'
          exact ⟨f', htrims.of_ready hready', hmade⟩
        · obtain ⟨f', htrims⟩ := skip_trims hb span
          exact ⟨f', htrims.of_ready hready', by simp⟩

/-! ## Making room -/

/-- One round frees a slot, and not so many that the range would turn inside out. -/
theorem purgeOldest_trims (h : Stored a.slots a.filled f t v) (hwide : depth < t - f) :
    ∃ f', f < f' ∧ Stored a.purgeOldest.slots a.purgeOldest.filled f' t v ∧
      a.purgeOldest.ready.length + f ≤ a.ready.length + f' := by
  unfold depth at hwide
  obtain ⟨hslots, hfilled, hready⟩ := a.activate_keeps
  have hb : Stored a.activate.slots a.activate.filled f t v := by rwa [hslots, hfilled]
  have hactive := activate_activate a
  rw [purgeOldest]
  generalize a.activate = b at hb hready hactive ⊢
  have hdrop : Stored b.dropOldest.slots b.dropOldest.filled (f + 1) t v := hb.erase (by omega)
  dsimp only
  split
  · rename_i hhead
    have hhead : b.activate.active.head = seqAt f := by
      rw [hactive]
      have : b.active.head = b.filled.head := by simpa using (Bool.and_eq_true_iff.mp hhead).2
      rw [this, hb.span_eq]
      rfl
    obtain ⟨f', htrims, hmade⟩ := build_trims hb (.inl hhead) true
    have hweight := htrims.weight
    rw [hready] at hweight
    have hle := htrims.le
    have hfew := htrims.few
    rcases hbuild : b.build true with ⟨c, made⟩
    rw [hbuild] at htrims hmade hweight
    cases made with
    | true => exact ⟨f', hmade rfl, htrims.stored, hweight⟩
    | false =>
      have hdrop : Stored (c.slots.erase c.filled.head) { c.filled with head := c.filled.head + 1 }
        (f' + 1) t v := htrims.stored.erase (by omega)
      refine ⟨f' + 1, by omega, hdrop, ?_⟩
      rw [dropOldest_ready]
      dsimp only at hweight ⊢
      omega
  · exact ⟨f + 1, by omega, hdrop, by rw [dropOldest_ready, hready]; omega⟩

theorem purge_trims (fuel : Nat) (h : Stored a.slots a.filled f t v)
    (hshort : t - f < 65536 - depth) (hfuel : t - f ≤ fuel + depth) :
    ∃ f', Stored (purge fuel a).slots (purge fuel a).filled f' t v ∧ f ≤ f' ∧ t - f' ≤ depth ∧
      (purge fuel a).ready.length + f ≤ a.ready.length + f' := by
  induction fuel generalizing a f with
  | zero => exact ⟨f, h, Nat.le_refl _, by omega, Nat.le_refl _⟩
  | succ fuel ih =>
    by_cases hdepth : t - f ≤ depth
    · rw [purge_eq_self h hdepth]
      exact ⟨f, h, Nat.le_refl _, hdepth, Nat.le_refl _⟩
    · obtain ⟨f₁, hlt, h₁, hweight₁⟩ := purgeOldest_trims h (by omega)
      obtain ⟨f₂, h₂, hle₂, hdepth₂, hweight₂⟩ := ih h₁ (by omega) (by omega)
      rw [purge_eq_purge h (by omega) hshort]
      exact ⟨f₂, h₂, by omega, hdepth₂, by omega⟩

/-! ## Popping -/

/-- A sample popped is one less to come. -/
theorem pop_trims (h : Stored a.slots a.filled f t v) (hdepth : t - f ≤ depth) :
    ∃ f' b, f ≤ f' ∧ Stored b.slots b.filled f' t v ∧
      (a.pop = (b, none) ∧ b.ready = [] ∨
        ∃ s, a.pop = (b, some s) ∧ b.ready.length + 1 + f ≤ a.ready.length + f') := by
  unfold depth at hdepth
  obtain ⟨f', htrims, -⟩ := build_trims h (.inr (by omega)) false
  have hweight := htrims.weight
  rcases hbuild : a.build false with ⟨b, made⟩
  rw [hbuild] at htrims hweight
  cases hready : b.ready with
  | nil => exact ⟨f', b, htrims.le, htrims.stored, .inl ⟨pop_eq_none hbuild hready, hready⟩⟩
  | cons s rest =>
    refine ⟨f', { b with ready := rest }, htrims.le, htrims.stored,
      .inr ⟨s, pop_eq_some hbuild hready, ?_⟩⟩
    simpa [hready] using hweight

/-- Between two packets: nothing is ready, and what is stored fits into the window. -/
def Narrow (a : Assembler) : Prop :=
  a.ready = [] ∧ ∃ f t v, Stored a.slots a.filled f t v ∧ t - f ≤ depth

theorem exists_drains (h : Stored a.slots a.filled f t v) (hdepth : t - f ≤ depth) :
    ∃ ss b, Drains a ss b ∧ Narrow b ∧ ss.length ≤ a.ready.length + (t - f) := by
  generalize hn : a.ready.length + (t - f) = n
  induction n using Nat.strongRecOn generalizing a f with
  | ind n ih =>
    subst hn
    obtain ⟨f', b, hle, hb, ⟨hpop, hready⟩ | ⟨s, hpop, hweight⟩⟩ := pop_trims h hdepth
    · exact ⟨[], b, .done hpop, ⟨hready, f', t, v, hb, by omega⟩, Nat.zero_le _⟩
    · -- One sample is out, and what can still come has become less.
      have hstored := hb.le
      have hstored' := h.le
      obtain ⟨ss, c, hdrains, hnarrow, hlength⟩ := ih _ (by omega) hb (by omega) rfl
      refine ⟨s :: ss, c, .next hpop hdrains, hnarrow, ?_⟩
      rw [List.length_cons]
      omega

theorem Narrow.new (codec : Depacketizer) : Narrow (.new codec) :=
  ⟨rfl, 0, 0, fun _ => none, ⟨rfl, Nat.le_refl _, by omega, fun _ _ _ => by simp [Assembler.new]⟩,
    Nat.zero_le _⟩

/-- Any packet gives some samples and leaves the assembler as it was between packets. -/
theorem Narrow.push (h : Narrow a) (p : Packet) :
    ∃ ss b, Drains (a.push p) ss b ∧ Narrow b ∧ ss.length < 65536 := by
  obtain ⟨hready, f, t, v, hstored, hdepth⟩ := h
  obtain ⟨f₁, t₁, w, h₁, hshort⟩ := hstored.exists_insert hdepth p p.sequence
  have h₁ : Stored (a.store p).slots (a.store p).filled f₁ t₁ w := h₁
  obtain ⟨f₂, hle₂, -, h₂⟩ := release_stored h₁ a.active false
  obtain ⟨f₃, h₃, hle₃, hdepth₃, hweight₃⟩ :=
    purge_trims 65536 h₂ (by omega) (by omega)
  obtain ⟨ss, b, hdrains, hnarrow, hlength⟩ := exists_drains h₃ hdepth₃
  refine ⟨ss, b, hdrains, hnarrow, ?_⟩
  have hnone : ((a.store p).release a.active false).ready = [] := by simp [store, hready]
  rw [hnone, List.length_nil] at hweight₃
  have hle := h₃.le
  omega

end Assembler

end Headend.Rtp
