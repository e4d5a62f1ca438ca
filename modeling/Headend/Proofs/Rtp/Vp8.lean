import Headend.Proofs.Rtp.Push

/-!
# Samples of VP8 frames

`P` is the packet of each position. As long as a packet of the frame at the cut is missing, or the
one after the frame, nothing is cut; once they are all there, the frame becomes a sample.

If packets come in one after another, and none is missing, then the slot of each position stored
holds its packet, and what is cut is told by where the cut is: at the first packet of a frame the
frame becomes a sample, inside of a frame what is left of it is given up.
-/

namespace Headend.Rtp

variable {P : Nat → Packet} {f s c e t : Nat}

/-- The part of a frame in a packet whose descriptor is one byte long. -/
def partOf (p : Packet) : Bytes := p.payload.drop 1

/-- The frame in its packets. -/
def frameData (ps : List Packet) : Bytes := ps.flatMap partOf

/-- A payload with a one-byte descriptor and something behind it. -/
def PlainPayload (payload : Bytes) : Prop :=
  4 ≤ payload.length ∧ ∀ b ∈ payload.head?, b &&& 0x80 = 0

/-- The packets of a frame, by position. -/
structure Frame (P : Nat → Packet) (s e : Nat) : Prop where
  lt : s < e
  head : ∀ j, s ≤ j → j < e → Codec.Vp8.isHead (P j).payload = decide (j = s)
  marker : ∀ j, s ≤ j → j < e → (P j).marker = decide (j + 1 = e)
  timestamp : ∀ j, s ≤ j → j < e → (P j).timestamp = (P s).timestamp
  payload : ∀ j, s ≤ j → j < e → PlainPayload (P j).payload

/-- The packet behind what is stored. -/
theorem Stored.next {slots : Slots} {span : Span}
    (h : Stored slots span f t fun j => some (P j)) (hlt : f < t) (hwidth : t - f ≤ Assembler.depth)
    (hseq : seqAt t = (P t).sequence) :
    Stored (slots.insert (P t).sequence (P t)) (span.stretch (P t).sequence) f (t + 1)
      fun j => some (P j) := by
  unfold Assembler.depth at hwidth
  rw [← hseq]
  refine (h.insert_after hlt (Nat.le_refl _) (by omega) (by omega)).congr fun q hq hqt => ?_
  unfold storeAt
  by_cases hqt' : q = t
  · simp [hqt']
  · have hin : f ≤ q ∧ q < t := by omega
    simp [hqt', hin]

/-! ## Joining -/

theorem depacketize_plain {payload : Bytes} (h : PlainPayload payload) :
    Codec.Vp8.depacketize .none payload = (.none, some (payload.drop 1)) := by
  obtain ⟨hlen, hx⟩ := h
  match payload with
  | [] => simp at hlen
  | [_] => simp at hlen
  | b₀ :: b₁ :: rest =>
    have hx : b₀ &&& 0x80 = 0 := hx b₀ rfl
    have hlen : 2 ≤ rest.length := by simpa using hlen
    simp [Codec.Vp8.depacketize, hlen, hx, Codec.Vp8.Fields.skip, Codec.Vp8.Fields.none,
      Codec.Vp8.skipByte, Codec.Vp8.nonempty]

theorem join_plain {ps : List Packet} (h : ∀ p ∈ ps, PlainPayload p.payload) (data : Bytes) :
    (Depacketizer.vp8 .none).join ps data = (.vp8 .none, some (data ++ frameData ps)) := by
  induction ps generalizing data with
  | nil => simp [Depacketizer.join, frameData]
  | cons p ps ih =>
    have hp := depacketize_plain (h p List.mem_cons_self)
    have hps := ih (fun q hq => h q (List.mem_cons_of_mem _ hq)) (data ++ partOf p)
    simp only [Depacketizer.join, Depacketizer.depacketize, hp]
    rw [← partOf, hps]
    simp [frameData]

namespace Assembler

/-! ## Cutting, with some packets missing -/

namespace Standing

variable {a : Assembler} {v : Nat → Option Packet} {m : Nat}

/-- The end of the frame is behind the first packet that is missing. -/
theorem next?_eq_none (h : Standing (.vp8 .none) a f c t v) (hact : a.active = .between c t)
    (hframe : Frame P s e) (hsc : s ≤ c) (hcm : c ≤ m) (hme : m < e) (hmt : m ≤ t)
    (hv : ∀ j, c ≤ j → j < m → v j = some (P j)) (hmiss : m < t → v m = none) : a.next? = none := by
  have hlt := h.lt
  rcases Nat.eq_or_lt_of_le hcm with rfl | hcm'
  · exact Assembler.next?_eq_none h.stored hact h.le hlt (hmiss hlt)
  · have hfirst : v c = some (P c) := hv c (Nat.le_refl _) hcm'
    have hscan : a.scan (P c).timestamp 65536 (seqAt c) = none := by
      refine scan_eq_none h.stored hact h.le (Nat.le_refl _) hcm hmt
        (fun j hj hjm => ⟨P j, hv j hj hjm, ?_, ?_⟩) hmiss
      · rw [hframe.timestamp j (by omega) (by omega), hframe.timestamp c (by omega) (by omega)]
      · have hmarker := hframe.marker j (by omega) (by omega)
        rw [decide_eq_false (by omega)] at hmarker
        simp [h.codec, Depacketizer.isTail, hmarker]
    rw [next?_eq h.stored hact h.le hlt hfirst, hscan]
    rfl

/-- The sample reaches to the end of the frame. -/
theorem next?_eq_some (h : Standing (.vp8 .none) a f c t v) (hact : a.active = .between c t)
    (hframe : Frame P s e) (hsc : s ≤ c) (hce : c < e) (het : e ≤ t)
    (hv : ∀ j, c ≤ j → j < e → v j = some (P j)) : a.next? = some (P c, .between c e) := by
  have hshort := h.stored.short
  have hle := h.le
  have hfirst : v c = some (P c) := hv c (Nat.le_refl _) hce
  have hscan : a.scan (P c).timestamp 65536 (seqAt c) = some (.between c e) := by
    refine scan_eq_some h.stored hact hle (Nat.le_refl _) hce het
      (fun j hj hje => ⟨P j, hv j hj hje, ?_, ?_⟩) (by omega)
    · rw [hframe.timestamp j (by omega) (by omega), hframe.timestamp c (by omega) (by omega)]
    · simp [h.codec, Depacketizer.isTail, hframe.marker j (by omega) (by omega)]
  rw [next?_eq h.stored hact hle h.lt hfirst, hscan]
  rfl

/-- Without a purge, nothing is cut before all of the frame and the packet after it are there. -/
theorem build_wait (h : Standing (.vp8 .none) a f c t v) (hframe : Frame P s e) (hsc : s ≤ c)
    (hcm : c ≤ m) (hme : m ≤ e) (hmt : m ≤ t) (hv : ∀ j, c ≤ j → j < m → v j = some (P j))
    (hmiss : m < t → v m = none) : a.build false = (a.extend, false) := by
  have hle := h.le
  have hlt := h.lt
  obtain ⟨hext, hact, -⟩ := h.extend
  rcases Nat.eq_or_lt_of_le hme with rfl | hlt'
  · rcases Nat.eq_or_lt_of_le hcm with rfl | hcm'
    · -- The frame is cut already, and the next one has not begun.
      rw [h.build_eq, Assembler.next?_eq_none hext.stored hact hle hlt (hmiss hlt)]
    · have hslot : a.extend.slots.get? (seqAt m) = none := by
        rcases Nat.eq_or_lt_of_le hmt with rfl | hmt'
        · exact hext.stored.get?_of_ge (Nat.le_refl _) h.stored.short
        · rw [hext.stored.get?_of_lt (by omega) hmt', hmiss hmt']
      rw [h.build_eq, hext.next?_eq_some hact hframe hsc hcm' hmt hv]
      simp [Slots.has, hslot]
  · rw [h.build_eq, hext.next?_eq_none hact hframe hsc hcm hlt' hmt hv hmiss]

/-- At its first packet the frame is cut. -/
theorem build_head (h : Standing (.vp8 .none) a f s t v) (hframe : Frame P s e) (het : e ≤ t)
    (purging : Bool) (hv : ∀ j, s ≤ j → j < e → v j = some (P j))
    (hnext : purging = true ∨ e < t ∧ v e ≠ none) :
    ∃ r f' sample, a.build purging = (r, true) ∧ r.codec = .vp8 .none ∧
      Stored r.slots r.filled f' t v ∧ r.active = .between e t ∧
      f ≤ f' ∧ f' ≤ e ∧ (f = s → s < f') ∧ (f = s → e = t → f' = s + 1) ∧
      r.ready = a.ready ++ [sample] ∧
      sample.data = frameData ((List.range' s (e - s)).map P) := by
  have hle := h.le
  have hse := hframe.lt
  obtain ⟨hext, hact, hready⟩ := h.extend
  have hplain : ∀ p ∈ (List.range' s (e - s)).map P, PlainPayload p.payload := by
    intro p hp
    obtain ⟨j, hj, rfl⟩ := List.mem_map.1 hp
    rw [List.mem_range'_1] at hj
    exact hframe.payload j hj.1 (by omega)
  have hjoin : a.extend.codec.join (a.extend.slots.run (e - s) (seqAt s)) [] =
      (.vp8 .none, some (frameData ((List.range' s (e - s)).map P))) := by
    rw [hext.codec, run_eq hext.stored P hle (by omega) (fun j hj hj' => hv j hj (by omega)),
      join_plain hplain]
    rfl
  obtain ⟨f', r, htake, hstored, hract, hff', hf'e, hfirst, hwhole, hcodec, hrready⟩ :=
    take_spec (P s) hext.stored hact hle hse het hjoin
  have hhead : Codec.Vp8.isHead (P s).payload = true := by
    rw [hframe.head s (Nat.le_refl _) hse]
    simp
  have hgo : (!purging && !a.extend.slots.has (seqAt e)) = false := by
    rcases hnext with rfl | ⟨hlt, hnext⟩
    · rfl
    · obtain ⟨q, hq⟩ := Option.ne_none_iff_exists'.1 hnext
      have hslot : a.extend.slots.get? (seqAt e) = some q := by
        rw [hext.stored.get?_of_lt (by omega) hlt, hq]
      simp [Slots.has, hslot]
  refine ⟨r, f', _, ?_, hcodec, hstored, hract, hff', hf'e, hfirst, hwhole, by rw [hrready, hready],
    rfl⟩
  rw [h.build_eq, hext.next?_eq_some hact hframe (Nat.le_refl _) hse het hv]
  simp only [Span.between_tail, hgo, Bool.false_eq_true, if_false]
  simp [hext.codec, Depacketizer.isHead, hhead, htake]

end Standing

/-- An assembler that has all packets of its range. -/
abbrev Full (P : Nat → Packet) (a : Assembler) (f c t : Nat) : Prop :=
  Standing (.vp8 .none) a f c t fun j => some (P j)

namespace Full

variable {a : Assembler}

theorem extend (h : Full P a f c t) :
    Full P a.extend f c t ∧ a.extend.active = .between c t ∧ a.extend.ready = a.ready :=
  Standing.extend h

/-! ## Cutting -/

/-- The end of the frame has not come yet. -/
theorem next?_eq_none (h : Full P a f c t) (hact : a.active = .between c t) (hframe : Frame P s e)
    (hsc : s ≤ c) (ht : t < e) : a.next? = none :=
  Standing.next?_eq_none h hact hframe hsc (Nat.le_of_lt h.lt) ht (Nat.le_refl _)
    (fun _ _ _ => rfl) fun hcon => absurd hcon (Nat.lt_irrefl t)

/-- The sample reaches to the end of the frame. -/
theorem next?_eq_some (h : Full P a f c t) (hact : a.active = .between c t) (hframe : Frame P s e)
    (hsc : s ≤ c) (hce : c < e) (het : e ≤ t) : a.next? = some (P c, .between c e) :=
  Standing.next?_eq_some h hact hframe hsc hce het fun _ _ _ => rfl

theorem build_eq_extend (h : Full P a f c t) (hframe : Frame P s e) (hsc : s ≤ c) (ht : t < e)
    (purging : Bool) : a.build purging = (a.extend, false) := by
  obtain ⟨hext, hact, -⟩ := h.extend
  rw [h.build_eq, next?_eq_none hext hact hframe hsc ht]

/-- Without a purge, nothing is cut before a packet of the next frame is there. -/
theorem build_wait (h : Full P a f c t) (hframe : Frame P s e) (hsc : s ≤ c) (ht : t ≤ e) :
    a.build false = (a.extend, false) :=
  Standing.build_wait h hframe hsc (Nat.le_of_lt h.lt) ht (Nat.le_refl _) (fun _ _ _ => rfl)
    fun hcon => absurd hcon (Nat.lt_irrefl t)

theorem go (h : Full P a f c t) {purging : Bool} (hfe : f ≤ e) (hnext : purging = true ∨ e < t) :
    (!purging && !a.slots.has (seqAt e)) = false := by
  rcases hnext with rfl | hlt
  · rfl
  · have hslot := h.stored.get?_of_lt hfe hlt
    simp [Slots.has, hslot]

/-- At its first packet the frame is cut. -/
theorem build_head (h : Full P a f s t) (hframe : Frame P s e) (het : e ≤ t) (purging : Bool)
    (hnext : purging = true ∨ e < t) :
    ∃ r f' sample, a.build purging = (r, true) ∧ r.codec = .vp8 .none ∧
      Stored r.slots r.filled f' t (fun j => some (P j)) ∧ r.active = .between e t ∧
      f ≤ f' ∧ f' ≤ e ∧ (f = s → s < f') ∧ (f = s → e = t → f' = s + 1) ∧
      r.ready = a.ready ++ [sample] ∧
      sample.data = frameData ((List.range' s (e - s)).map P) :=
  Standing.build_head h hframe het purging (fun _ _ _ => rfl)
    (hnext.imp_right fun hlt => ⟨hlt, Option.some_ne_none _⟩)

/-- Inside of a frame the rest of it is given up. -/
theorem build_skip (h : Full P a f c t) (hframe : Frame P s e) (hsc : s < c) (hce : c < e)
    (het : e ≤ t) (purging : Bool) (hnext : purging = true ∨ e < t) :
    ∃ r f', a.build purging = (r, false) ∧ r.codec = .vp8 .none ∧
      Stored r.slots r.filled f' t (fun j => some (P j)) ∧ r.active = .between e t ∧
      f ≤ f' ∧ f' ≤ c + 1 ∧ (f = c → f' = c + 1) ∧ r.ready = a.ready := by
  have hle := h.le
  obtain ⟨hext, hact, hready⟩ := h.extend
  obtain ⟨f', hstored, hract, hff', hf'c, hfirst, hcodec, hrready⟩ :=
    skip_spec hext.stored hact hle hce het
  have hhead : Codec.Vp8.isHead (P c).payload = false := by
    rw [hframe.head c (Nat.le_of_lt hsc) hce]
    simpa using (by omega : c ≠ s)
  refine ⟨_, f', ?_, by rw [hcodec, hext.codec], hstored, hract, hff', hf'c, hfirst,
    by rw [hrready, hready]⟩
  rw [h.build_eq, next?_eq_some hext hact hframe (Nat.le_of_lt hsc) hce het]
  simp only [Span.between_tail, hext.go (by omega) hnext, Bool.false_eq_true, if_false]
  simp [hext.codec, Depacketizer.isHead, hhead]

/-- Nothing comes of popping. -/
theorem drains_wait (h : Full P a f c t) (hframe : Frame P s e) (hsc : s ≤ c) (ht : t ≤ e)
    (hready : a.ready = []) : ∃ b, Drains a [] b ∧ Full P b f c t ∧ b.ready = [] := by
  obtain ⟨hext, -, hready'⟩ := h.extend
  have hnone : a.extend.ready = [] := by rw [hready', hready]
  exact ⟨a.extend, .done (pop_eq_none (h.build_wait hframe hsc ht) hnone), hext, hnone⟩

/-! ## Storing the next packet -/

theorem store_next (h : Full P a f c t) (hwidth : t - f ≤ depth)
    (hseq : seqAt t = (P t).sequence) : Full P (a.store (P t)) f c (t + 1) := by
  have hlt := h.lt
  have hle := h.le
  obtain ⟨u, hact, hcu, hut⟩ := h.active
  exact ⟨h.codec, h.stored.next (by omega) hwidth hseq, hle, ⟨u, hact, hcu, by omega⟩⟩

/-- The next packet, if what is not cut yet stays within `depth`. -/
theorem push_within (h : Full P a f c t) (hwidth : t - f ≤ depth) (hnarrow : t + 1 - c ≤ depth)
    (hready : a.ready = []) (hseq : seqAt t = (P t).sequence) :
    ∃ f', Full P (a.push (P t)) f' c (t + 1) ∧ t + 1 - f' ≤ depth ∧ (a.push (P t)).ready = [] := by
  have hdepth : depth + 2 < 65536 - depth := by decide
  obtain ⟨f₁, h₁, hf₁⟩ := (h.store_next hwidth hseq).release
  obtain ⟨f', h', hdepth', hready'⟩ := h₁.purge_before hnarrow 65536 (by omega) (by omega)
  refine ⟨f', h', hdepth', ?_⟩
  rw [push_eq]
  change (Assembler.purge 65536 ((a.store (P t)).release (a.store (P t)).active false)).ready = []
  rw [hready', release_ready]
  exact hready

/-- The next packet, if it makes room at the cut itself. -/
theorem push_beyond (h : Full P a f c t) (hwidth : t - f ≤ depth) (hwide : depth < t + 1 - c)
    (hready : a.ready = []) (hseq : seqAt t = (P t).sequence) :
    ∃ b left, Full P b c c (t + 1) ∧ b.ready = [] ∧ a.push (P t) = purge left b.purgeOldest := by
  have hdepth : depth + 2 < 65536 - depth := by decide
  obtain ⟨f₁, h₁, hf₁⟩ := (h.store_next hwidth hseq).release
  obtain ⟨b, left, hb, hready', hpurge⟩ := h₁.purge_reach hwide 65536 (by omega) (by omega)
  refine ⟨b, left, hb, ?_, hpurge⟩
  rw [hready', release_ready]
  exact hready

/-- A purge at the cut of a frame that has not ended gives up one packet. -/
theorem purgeOldest_short (h : Full P a c c t) (hframe : Frame P s e) (hsc : s ≤ c)
    (hct : c + 1 < t) (ht : t < e) :
    Full P a.purgeOldest (c + 1) (c + 1) t ∧ a.purgeOldest.ready = a.ready := by
  obtain ⟨hext, hact, hready⟩ := h.extend
  rw [h.purgeOldest_of_eq, h.build_eq_extend hframe hsc ht true]
  refine ⟨⟨hext.codec, hext.stored.erase (by omega), Nat.le_refl _, ⟨t, ?_, hct, Nat.le_refl _⟩⟩,
    hready⟩
  change ({ a.extend.active with head := a.extend.active.head + 1 } : Span) = _
  rw [hact, Span.between_succ]

/-- A purge at the first packet of a frame that has ended cuts the frame. -/
theorem purgeOldest_head (h : Full P a s s t) (hframe : Frame P s e) (het : e ≤ t) :
    a.purgeOldest = (a.build true).1 := by
  obtain ⟨r, f', sample, hbuild, -⟩ := h.build_head hframe het true (.inl rfl)
  rw [h.purgeOldest_of_eq, hbuild]
  rfl

/-- A purge inside of a frame that has ended gives up the rest of it, and one packet more. -/
theorem purgeOldest_skip (h : Full P a c c t) (hframe : Frame P s e) (hsc : s < c) (hce : c + 1 < e)
    (het : e ≤ t) :
    a.purgeOldest.codec = .vp8 .none ∧
      Stored a.purgeOldest.slots a.purgeOldest.filled (c + 2) t (fun j => some (P j)) ∧
      a.purgeOldest.active = .between (e + 1) t ∧ a.purgeOldest.ready = a.ready := by
  obtain ⟨r, f', hbuild, hcodec, hstored, hract, -, -, hfirst, hready⟩ :=
    h.build_skip hframe hsc (by omega) het true (.inl rfl)
  obtain rfl := hfirst rfl
  rw [h.purgeOldest_of_eq, hbuild]
  -- The cut is at the end of the frame already, and the purge moves it once more.
  refine ⟨hcodec, hstored.erase (by omega), ?_, hready⟩
  change ({ r.active with head := r.active.head + 1 } : Span) = _
  rw [hract, Span.between_succ]

end Full

end Assembler

end Headend.Rtp
