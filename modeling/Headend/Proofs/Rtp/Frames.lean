import Headend.Proofs.Rtp.Vp8

/-!
# Frames in order

What becomes of frames whose packets come in order. Between two packets the assembler is in one of
four phases, and the number of packets of a frame alone decides which phases it goes through. A
frame of at most `depth` packets stays whole until the next one begins. With `depth + 1` packets the
window is full as the frame ends, and the frame is cut at once. With more it is given up, and as the
purge moves the cut one packet too far, the next frame is given up with it.
-/

namespace Headend.Rtp.Assembler

variable {P : Nat → Packet} {a : Assembler} {f s c e g t : Nat}

/-! ## Phases -/

inductive Phase where
  /-- The cut is at the first packet of the frame. -/
  | whole
  /-- The cut is inside of the frame, as far back as the window reaches. -/
  | broken
  /-- The active span begins behind its own end. -/
  | wrapped
  /-- Nothing is active. -/
  | void
  deriving DecidableEq

/-- The packets up to `t` of the frame that begins at `s` are written, and the assembler is in a
phase. -/
inductive After (P : Nat → Packet) (s t : Nat) : Phase → Assembler → Prop where
  | whole {a : Assembler} {f : Nat} (hfull : Full P a f s t) (hready : a.ready = [])
      (hwidth : t - f ≤ depth) : After P s t .whole a
  | broken {a : Assembler} {f c : Nat} (hfull : Full P a f c t) (hready : a.ready = [])
      (hwidth : t - f ≤ depth) (hcut : c = max (s + 1) (t - depth)) : After P s t .broken a
  | wrapped {a : Assembler} (hcodec : a.codec = .vp8 .none)
      (hstored : Stored a.slots a.filled (t - 9) t fun j => some (P j))
      (hactive : a.active = .between (t + 1) (t + 65536)) (hready : a.ready = [])
      (hlong : s + 12 ≤ t) : After P s t .wrapped a
  | void {a : Assembler} {r : Nat} (hcodec : a.codec = .vp8 .none)
      (hstored : Stored a.slots a.filled (s - 9) (s + 1) fun j => some (P j))
      (hactive : a.active = .between (s + 1) (s + 1)) (hready : a.ready = []) (hframe : Frame P r s)
      (hlong : r + 12 ≤ s) (hone : t = s + 1) : After P s t .void a

/-- The data of the samples that a packet completes. -/
def Gives (a : Assembler) (p : Packet) (data : List Bytes) (b : Assembler) : Prop :=
  ∃ ss, Drains (a.push p) ss b ∧ ss.map (·.data) = data

/-! ## Draining -/

/-- Nothing but the sample that a purge has cut comes of popping. -/
theorem Full.drains_ready (h : Full P a f c t) (hframe : Frame P s e) (hsc : s ≤ c) (ht : t ≤ e)
    {sample : Sample} (hready : a.ready = [sample]) :
    ∃ b, Drains a [sample] b ∧ Full P b f c t ∧ b.ready = [] := by
  obtain ⟨hext, -, hready'⟩ := h.extend
  have hbuild := h.build_wait hframe hsc ht
  have hrest : Full P { a.extend with ready := [] } f c t := Standing.setReady hext []
  obtain ⟨b, hdrains, hb, hbready⟩ := hrest.drains_wait hframe hsc ht rfl
  exact ⟨b, .next (pop_eq_some hbuild (by rw [hready', hready])) hdrains, hb, hbready⟩

/-- The frame is cut once the next one has begun. -/
theorem Full.drains_head (h : Full P a f s (e + 1)) (hframe : Frame P s e) (hnext : Frame P e g)
    (hready : a.ready = []) :
    ∃ b f' sample, Drains a [sample] b ∧ Full P b f' e (e + 1) ∧ f ≤ f' ∧ b.ready = [] ∧
      sample.data = frameData ((List.range' s (e - s)).map P) := by
  obtain ⟨r, f', sample, hbuild, hcodec, hstored, hact, hff', hf', -, -, hrready, hdata⟩ :=
    h.build_head hframe (Nat.le_succ e) false (.inr (Nat.lt_succ_self e))
  have hr : Full P r f' e (e + 1) :=
    ⟨hcodec, hstored, hf', ⟨e + 1, hact, Nat.lt_succ_self e, Nat.le_refl _⟩⟩
  have hrest : Full P { r with ready := [] } f' e (e + 1) := Standing.setReady hr []
  obtain ⟨b, hdrains, hb, hbready⟩ := hrest.drains_wait hnext (Nat.le_refl _) hnext.lt rfl
  rw [hready, List.nil_append] at hrready
  exact ⟨b, f', sample, .next (pop_eq_some hbuild hrready) hdrains, hb, hff', hbready, hdata⟩

/-- The rest of a broken frame is given up once the next one has begun. -/
theorem Full.drains_skip (h : Full P a f c (e + 1)) (hframe : Frame P s e) (hsc : s < c)
    (hce : c < e) (hready : a.ready = []) :
    ∃ b f', Drains a [] b ∧ Full P b f' e (e + 1) ∧ f ≤ f' ∧ b.ready = [] := by
  obtain ⟨r, f', hbuild, hcodec, hstored, hact, hff', hf', -, hrready⟩ :=
    h.build_skip hframe hsc hce (Nat.le_succ e) false (.inr (Nat.lt_succ_self e))
  rw [hready] at hrready
  exact ⟨r, f', .done (pop_eq_none hbuild hrready), ⟨hcodec, hstored, by omega,
    ⟨e + 1, hact, Nat.lt_succ_self e, Nat.le_refl _⟩⟩, hff', hrready⟩

/-- With nothing active, everything stored becomes active. -/
theorem Full.activate (hcodec : a.codec = .vp8 .none)
    (hstored : Stored a.slots a.filled f t fun j => some (P j)) (hact : a.active = .between c c)
    (hlt : f < t) : Full P a.activate f f t ∧ a.activate.ready = a.ready := by
  have hempty : a.active.isEmpty = true := by
    rw [hact]
    simp [Span.isEmpty]
  unfold Assembler.activate
  rw [if_pos hempty]
  exact ⟨⟨hcodec, hstored, Nat.le_refl _, ⟨t, hstored.span_eq, hlt, Nat.le_refl _⟩⟩, rfl⟩

theorem purgeOldest_activate (a : Assembler) : a.activate.purgeOldest = a.purgeOldest := by
  unfold purgeOldest
  rw [activate_activate]

/-! ## The first packet of all -/

theorem After.start (hframe : Frame P s e) (hseq : seqAt s = (P s).sequence) :
    ∃ b, Gives (.new (.vp8 .none)) (P s) [] b ∧ After P s (s + 1) .whole b := by
  obtain ⟨hfirst, hready⟩ := Standing.first (.vp8 .none) hseq
  have hfull : Full P ((new (.vp8 .none)).push (P s)).activate s s (s + 1) := by
    refine hfirst.congr fun q hq hqt => ?_
    obtain rfl : q = s := by omega
    simp
  obtain ⟨b, hdrains, hb, hbready⟩ := hfull.drains_wait hframe (Nat.le_refl _) hframe.lt hready
  have hdepth : 1 ≤ depth := by decide
  exact ⟨b, ⟨[], hdrains.of_activate, rfl⟩, .whole hb hbready (by omega)⟩

/-! ## Wrapped and void -/

/-- Nothing is found behind the end. -/
theorem Drains.of_wrapped (hstored : Stored a.slots a.filled f t fun j => some (P j))
    (hact : a.active = .between (t + 1) (t + 65536)) (hft : f < t) (hwidth : t + 1 < f + 65536)
    (hready : a.ready = []) : Drains a [] a := by
  -- The active span ends right where the stored one does, so it is not extended.
  have hside : a.filled.locate a.active.tail ≠ .inside := by
    rw [hact, Span.between_tail, seqAt_add_circle, hstored.span_eq,
      Span.locate_outside hft (Nat.le_refl _) hstored.short]
    split <;> simp
  have hextend : a.extend = a := by
    unfold Assembler.extend
    rw [if_neg hside]
  have hslot : a.slots.get? a.active.head = none := by
    rw [hact, Span.between_head, hstored.get?_of_ge (Nat.le_succ t) hwidth]
  have hnext : a.next? = none := by
    unfold Assembler.next?
    rw [hslot]
    rfl
  have hbuild : a.build false = (a, false) := by
    rw [build_eq false hact (by omega) (by omega), hextend, hnext]
  exact .done (pop_eq_none hbuild hready)

/-- The packet behind the end is not found, either; now nothing is active. -/
theorem After.next_wrapped (hframe : Frame P s e) (hseq : seqAt e = (P e).sequence)
    (h : After P s e .wrapped a) :
    ∃ b, Gives a (P e) [] b ∧ After P e (e + 1) .void b := by
  have hdepth : 9 < depth := by decide
  cases h with
  | wrapped hcodec hstored₀ hactive hready hlong =>
    have hstored := hstored₀.next (by omega) (by omega) hseq
    have hhead : (a.store (P e)).filled.head = seqAt (e - 9 + 65536) := by
      rw [seqAt_add_circle]
      exact congrArg Span.head hstored.span_eq
    -- The oldest slot counts as inside of the wrapped span, so nothing is freed.
    have hrelease : (a.store (P e)).release a.active false = a.store (P e) := by
      unfold Assembler.release
      rw [hhead, hactive, Span.locate_inside (by omega) (by omega) (by omega)]
      split <;> rfl
    have hpush : a.push (P e) = a.store (P e) := by
      rw [push_eq, hrelease]
      exact purge_eq_self hstored (by omega)
    have hact : (a.store (P e)).active = .between (e + 1) (e + 65536) := hactive
    have hside : (a.store (P e)).filled.locate (a.store (P e)).active.tail = .inside := by
      rw [hact, Span.between_tail, seqAt_add_circle]
      change (a.filled.stretch (P e).sequence).locate _ = _
      rw [hstored.span_eq, Span.locate_inside (by omega) (Nat.lt_succ_self e) (by omega)]
    -- The active span now ends where it begins.
    let b : Assembler := { a.store (P e) with active := .between (e + 1) (e + 1) }
    have hextend : (a.store (P e)).extend = b := by
      unfold Assembler.extend
      rw [if_pos hside, hact]
      change ({ a.store (P e) with active := ⟨_, (a.filled.stretch (P e).sequence).tail⟩ } :
        Assembler) = _
      rw [hstored.span_eq]
      rfl
    have hslot : b.slots.get? b.active.head = none :=
      hstored.get?_of_ge (Nat.le_refl _) (by omega)
    have hnext : b.next? = none := by
      unfold Assembler.next?
      rw [hslot]
      rfl
    have hbuild : (a.store (P e)).build false = (b, false) := by
      rw [build_eq false hact (by omega) (by omega), hextend, hnext]
    exact ⟨b, ⟨[], hpush ▸ .done (pop_eq_none hbuild hready), rfl⟩,
      .void hcodec hstored rfl hready hframe hlong rfl⟩

/-- The purge gives up the old frame, and the one packet that has come since. -/
theorem After.push_void (h : After P s t .void a) (hseq : seqAt t = (P t).sequence) :
    Full P (a.push (P t)) (s - 7) (s + 1) (s + 2) ∧ (a.push (P t)).ready = [] ∧ t = s + 1 := by
  have hdepth : depth = 10 := rfl
  cases h with
  | @void _ r hcodec₀ hstored₀ hactive hready₀ hframe hlong hone =>
    subst hone
    have hstored := hstored₀.next (by omega) (by omega) hseq
    have hrelease : (a.store (P (s + 1))).release a.active false = a.store (P (s + 1)) := by
      rw [hactive, release_empty]
    obtain ⟨hfull, hready⟩ := Full.activate (a := a.store (P (s + 1))) hcodec₀ hstored hactive
      (by omega)
    obtain ⟨hcodec, hpurged, hact, hready'⟩ :=
      hfull.purgeOldest_skip hframe (by omega) (by omega) (by omega)
    rw [purgeOldest_activate] at hcodec hpurged hact hready'
    rw [show s - 9 + 2 = s - 7 by omega] at hpurged
    have hpush : a.push (P (s + 1)) = (a.store (P (s + 1))).purgeOldest := by
      rw [push_eq, hrelease, purge_eq_purge hstored (by omega) (by omega)]
      exact purge_eq_self hpurged (by omega)
    rw [hpush]
    refine ⟨⟨hcodec, hpurged, by omega, ⟨s + 2, hact, by omega, by omega⟩⟩, ?_, rfl⟩
    rw [hready', hready]
    exact hready₀

/-! ## A further packet of a frame -/

section More

variable (hframe : Frame P s e) (hte : t < e) (hseq : seqAt t = (P t).sequence)

include hframe hte hseq

theorem After.more_within (h : After P s t .whole a) (hwidth : t + 1 - s ≤ depth) :
    ∃ b, Gives a (P t) [] b ∧ After P s (t + 1) .whole b := by
  cases h with
  | whole hfull hready₀ hwidth₀ =>
    obtain ⟨f', hpushed, hwidth', hready⟩ := hfull.push_within hwidth₀ hwidth hready₀ hseq
    obtain ⟨b, hdrains, hb, hbready⟩ := hpushed.drains_wait hframe (Nat.le_refl _) hte hready
    exact ⟨b, ⟨[], hdrains, rfl⟩, .whole hb hbready hwidth'⟩

/-- The window is full and the frame goes on: its first packet is given up. -/
theorem After.more_beyond (h : After P s t .whole a) (hwidth : t = s + depth) (hgo : t + 1 < e) :
    ∃ b, Gives a (P t) [] b ∧ After P s (t + 1) .broken b := by
  have hdepth : 1 < depth := by decide
  cases h with
  | whole hfull hready₀ hwidth₀ =>
    obtain ⟨b, left, hb, hbready, hpush⟩ := hfull.push_beyond hwidth₀ (by omega) hready₀ hseq
    obtain ⟨hpurged, hready⟩ := hb.purgeOldest_short hframe (Nat.le_refl _) (by omega) hgo
    rw [purge_eq_self hpurged.stored (by omega)] at hpush
    obtain ⟨b', hdrains, hb', hbready'⟩ :=
      hpurged.drains_wait hframe (Nat.le_succ s) hte (by rw [hready, hbready])
    exact ⟨b', ⟨[], hpush ▸ hdrains, rfl⟩, .broken hb' hbready' (by omega) (by omega)⟩

/-- The window is full and the frame ends: it is cut at once. -/
theorem After.more_last (h : After P s t .whole a) (hwidth : t = s + depth) (hend : t + 1 = e) :
    ∃ b, Gives a (P t) [frameData ((List.range' s (e - s)).map P)] b ∧
      After P s (t + 1) .broken b := by
  have hdepth : 1 < depth := by decide
  subst hend
  cases h with
  | whole hfull₀ hready₀ hwidth₀ =>
    obtain ⟨b, left, hb, hbready, hpush⟩ := hfull₀.push_beyond hwidth₀ (by omega) hready₀ hseq
    obtain ⟨r, f', sample, hbuild, hcodec, hstored, hact, -, -, -, hfirst, hrready, hdata⟩ :=
      hb.build_head hframe (Nat.le_refl _) true (.inl rfl)
    obtain rfl := hfirst rfl rfl
    rw [hb.purgeOldest_head hframe (Nat.le_refl _), hbuild,
      purge_eq_self hstored (by omega)] at hpush
    obtain ⟨hfull, hready⟩ := Full.activate hcodec hstored hact (by omega)
    rw [hrready, hbready, List.nil_append] at hready
    obtain ⟨b', hdrains, hb', hbready'⟩ :=
      hfull.drains_ready hframe (Nat.le_succ s) (Nat.le_refl _) hready
    exact ⟨b', ⟨[sample], hpush ▸ hdrains.of_activate, by simp [hdata]⟩,
      .broken hb' hbready' (by omega) (by omega)⟩

theorem After.more_broken (h : After P s t .broken a) (hgo : t + 1 < e ∨ t ≤ s + depth) :
    ∃ b, Gives a (P t) [] b ∧ After P s (t + 1) .broken b := by
  have hdepth : 1 < depth := by decide
  cases h with
  | @broken _ f c hfull hready₀ hwidth hcut =>
    have hlt := hfull.lt
    rcases Nat.lt_or_ge depth (t + 1 - c) with hwide | hnarrow
    · -- The window is full: the cut moves one packet on with it.
      obtain ⟨b, left, hb, hbready, hpush⟩ := hfull.push_beyond hwidth hwide hready₀ hseq
      obtain ⟨hpurged, hready⟩ := hb.purgeOldest_short hframe (by omega) (by omega) (by omega)
      rw [purge_eq_self hpurged.stored (by omega)] at hpush
      obtain ⟨b', hdrains, hb', hbready'⟩ :=
        hpurged.drains_wait hframe (by omega) hte (by rw [hready, hbready])
      exact ⟨b', ⟨[], hpush ▸ hdrains, rfl⟩, .broken hb' hbready' (by omega) (by omega)⟩
    · obtain ⟨f', hpushed, hwidth', hready⟩ := hfull.push_within hwidth hnarrow hready₀ hseq
      obtain ⟨b, hdrains, hb, hbready⟩ := hpushed.drains_wait hframe (by omega) hte hready
      exact ⟨b, ⟨[], hdrains, rfl⟩, .broken hb hbready hwidth' (by omega)⟩

/-- A broken frame ends with the window full: the purge moves the cut past the end. -/
theorem After.more_wrapped (h : After P s t .broken a) (hend : t + 1 = e) (hlong : s + depth < t) :
    ∃ b, Gives a (P t) [] b ∧ After P s (t + 1) .wrapped b := by
  have hdepth : depth = 10 := rfl
  subst hend
  cases h with
  | @broken _ f c hfull hready₀ hwidth hcut =>
    obtain ⟨b, left, hb, hbready, hpush⟩ := hfull.push_beyond hwidth (by omega) hready₀ hseq
    obtain ⟨hcodec, hstored, hact, hready⟩ :=
      hb.purgeOldest_skip hframe (by omega) (by omega) (Nat.le_refl _)
    rw [purge_eq_self hstored (by omega)] at hpush
    rw [show c + 2 = t + 1 - 9 by omega] at hstored
    have hact' : b.purgeOldest.active = .between (t + 1 + 1) (t + 1 + 65536) := by
      rw [hact, Span.between, Span.between, seqAt_add_circle]
    rw [hbready] at hready
    have hdrains := Drains.of_wrapped hstored hact' (by omega) (by omega) hready
    exact ⟨_, ⟨[], hpush ▸ hdrains, rfl⟩, .wrapped hcodec hstored hact' hready (by omega)⟩

theorem After.more_void (h : After P s t .void a) :
    ∃ b, Gives a (P t) [] b ∧ After P s (t + 1) .broken b := by
  have hdepth : depth = 10 := rfl
  obtain ⟨hfull, hready, rfl⟩ := h.push_void hseq
  obtain ⟨b, hdrains, hb, hbready⟩ := hfull.drains_wait hframe (Nat.le_succ s) hte hready
  exact ⟨b, ⟨[], hdrains, rfl⟩, .broken hb hbready (by omega) (by omega)⟩

end More

/-! ## The first packet of the next frame -/

theorem After.next_broken (hframe : Frame P s e) (hseq : seqAt e = (P e).sequence)
    (h : After P s e .broken a) :
    ∃ b, Gives a (P e) [] b ∧ After P e (e + 1) .whole b := by
  have hdepth : depth = 10 := rfl
  cases h with
  | @broken _ f c hfull₀ hready₀ hwidth hcut =>
    have hlt := hfull₀.lt
    rcases Nat.lt_or_ge depth (e + 1 - c) with hwide | hnarrow
    · -- The purge gives up the rest of the frame and leaves nothing active, so the frame's last
      -- packets become active again and are given up once more.
      obtain ⟨b, left, hb, hbready, hpush⟩ := hfull₀.push_beyond hwidth hwide hready₀ hseq
      obtain ⟨hcodec, hstored, hact, hready⟩ :=
        hb.purgeOldest_skip hframe (by omega) (by omega) (Nat.le_succ e)
      rw [purge_eq_self hstored (by omega)] at hpush
      obtain ⟨hfull, hready'⟩ := Full.activate hcodec hstored hact (by omega)
      obtain ⟨b', f', hdrains, hb', hf', hbready'⟩ :=
        hfull.drains_skip hframe (by omega) (by omega) (by rw [hready', hready, hbready])
      exact ⟨b', ⟨[], hpush ▸ hdrains.of_activate, rfl⟩, .whole hb' hbready' (by omega)⟩
    · obtain ⟨f', hpushed, hwidth', hready⟩ := hfull₀.push_within hwidth hnarrow hready₀ hseq
      obtain ⟨b, f'', hdrains, hb, hf'', hbready⟩ :=
        hpushed.drains_skip hframe (by omega) hlt hready
      exact ⟨b, ⟨[], hdrains, rfl⟩, .whole hb hbready (by omega)⟩

theorem After.next_void (hnext : Frame P e g) (hseq : seqAt e = (P e).sequence)
    (h : After P s e .void a) :
    ∃ b, Gives a (P e) [] b ∧ After P e (e + 1) .whole b := by
  have hdepth : depth = 10 := rfl
  obtain ⟨hfull, hready, rfl⟩ := h.push_void hseq
  obtain ⟨b, hdrains, hb, hbready⟩ := hfull.drains_wait hnext (Nat.le_refl _) hnext.lt hready
  exact ⟨b, ⟨[], hdrains, rfl⟩, .whole hb hbready (by omega)⟩

theorem After.next_whole (hframe : Frame P s e) (hnext : Frame P e g)
    (hseq : seqAt e = (P e).sequence) (h : After P s e .whole a) :
    ∃ b, Gives a (P e) [frameData ((List.range' s (e - s)).map P)] b ∧
      After P e (e + 1) .whole b := by
  cases h with
  | whole hfull hready₀ hwidth =>
    rcases Nat.lt_or_ge depth (e + 1 - s) with hwide | hnarrow
    · -- The window is full with the frame and this packet: the purge cuts the frame.
      obtain ⟨b, left, hb, hbready, hpush⟩ := hfull.push_beyond hwidth hwide hready₀ hseq
      obtain ⟨r, f', sample, hbuild, hcodec, hstored, hact, -, hf', hfirst, -, hrready, hdata⟩ :=
        hb.build_head hframe (Nat.le_succ e) true (.inl rfl)
      have hsf' := hfirst rfl
      have hle := hfull.le
      have hlt := hframe.lt
      rw [hb.purgeOldest_head hframe (Nat.le_succ e), hbuild, purge_eq_self hstored (by omega)]
        at hpush
      have hr : Full P r f' e (e + 1) :=
        ⟨hcodec, hstored, hf', ⟨e + 1, hact, Nat.lt_succ_self e, Nat.le_refl _⟩⟩
      rw [hbready, List.nil_append] at hrready
      obtain ⟨b', hdrains, hb', hbready'⟩ :=
        hr.drains_ready hnext (Nat.le_refl _) hnext.lt hrready
      exact ⟨b', ⟨[sample], hpush ▸ hdrains, by simp [hdata]⟩, .whole hb' hbready' (by omega)⟩
    · obtain ⟨f', hpushed, hwidth', hready⟩ := hfull.push_within hwidth hnarrow hready₀ hseq
      obtain ⟨b, f'', sample, hdrains, hb, hf'', hbready, hdata⟩ :=
        hpushed.drains_head hframe hnext hready
      exact ⟨b, ⟨[sample], hdrains, by simp [hdata]⟩, .whole hb hbready (by omega)⟩

end Headend.Rtp.Assembler
