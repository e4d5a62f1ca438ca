import Headend.Proofs.Rtp.Stored

/-!
# Cutting samples by position

One lemma for each step that cuts a sample: how the active span is extended, where the scan for the
end of a sample stops, what `take` and `skip` leave behind, and from these what `build` does. They
hold of both codecs; the codec is only asked which packets begin and end a sample.
-/

namespace Headend.Rtp.Assembler

variable {a : Assembler} {f t c u q e : Nat} {v : Nat → Option Packet}

/-! ## The active span -/

theorem activate_eq (hact : a.active = .between c u) (hcu : c < u) (hu : u < c + 65536) :
    a.activate = a := by
  unfold activate
  rw [hact, Span.isEmpty_between (by omega) hu]
  simp [show c ≠ u by omega]

theorem extend_eq (h : Stored a.slots a.filled f t v) (hact : a.active = .between c u)
    (hf : f ≤ c) (hcu : c < u) (hut : u ≤ t) : a.extend = { a with active := .between c t } := by
  have htail : a.active.tail = seqAt u := by rw [hact]; rfl
  unfold extend
  rcases Nat.eq_or_lt_of_le hut with rfl | hlt
  · -- It already reaches to the end of what is stored.
    have hside : a.filled.locate a.active.tail ≠ .inside := by
      rw [htail, h.span_eq, Span.locate_outside (by omega) (Nat.le_refl _) h.short]
      split <;> simp
    rw [if_neg hside, ← hact]
  · have hside : a.filled.locate a.active.tail = .inside := by
      rw [htail, h.span_eq, Span.locate_inside (by omega) hlt h.short]
    rw [if_pos hside, hact, h.span_eq]
    rfl

/-! ## The end of a sample -/

/-- A packet that ends the sample, with all before it present and of the same timestamp. -/
theorem scan_eq_some {ts : UInt32} {fuel : Nat} (h : Stored a.slots a.filled f t v)
    (hact : a.active = .between c t) (hf : f ≤ c) (hcq : c ≤ q) (hqe : q < e) (het : e ≤ t)
    (hall : ∀ j, q ≤ j → j < e →
      ∃ p, v j = some p ∧ p.timestamp = ts ∧ a.codec.isTail p = decide (j + 1 = e))
    (hfuel : e - q ≤ fuel) : a.scan ts fuel (seqAt q) = some (.between c e) := by
  have hshort := h.short
  have hhead : a.active.head = seqAt c := by rw [hact]; rfl
  induction fuel generalizing q with
  | zero => omega
  | succ fuel ih =>
    obtain ⟨p, hp, hts, htail⟩ := hall q (Nat.le_refl _) hqe
    have hslot : a.slots.get? (seqAt q) = some p := by
      rw [h.get?_of_lt (by omega) (by omega), hp]
    have hside : a.active.locate (seqAt q) = .inside := by
      rw [hact, Span.locate_inside hcq (by omega) (by omega)]
    rw [scan, hslot]
    simp only [hside, htail, hts, hhead, seqAt_add_one]
    by_cases hend : q + 1 = e
    · subst hend
      simp [Span.between]
    · simpa [hend] using
        ih (by omega) (by omega) (fun j hj hje => hall j (by omega) hje) (by omega)

/-- A packet that is missing before any packet ends the sample. -/
theorem scan_eq_none {ts : UInt32} {fuel m : Nat} (h : Stored a.slots a.filled f t v)
    (hact : a.active = .between c t) (hf : f ≤ c) (hcq : c ≤ q) (hqm : q ≤ m) (hmt : m ≤ t)
    (hall : ∀ j, q ≤ j → j < m → ∃ p, v j = some p ∧ p.timestamp = ts ∧ a.codec.isTail p = false)
    (hend : m < t → v m = none) : a.scan ts fuel (seqAt q) = none := by
  have hshort := h.short
  induction fuel generalizing q with
  | zero => rfl
  | succ fuel ih =>
    rw [scan]
    rcases Nat.eq_or_lt_of_le hqm with rfl | hlt
    · have hslot : a.slots.get? (seqAt q) = none := by
        rcases Nat.eq_or_lt_of_le hmt with rfl | hqt
        · exact h.get?_of_ge (Nat.le_refl _) hshort
        · rw [h.get?_of_lt (by omega) hqt, hend hqt]
      rw [hslot]
    · obtain ⟨p, hp, hts, htail⟩ := hall q (Nat.le_refl _) hlt
      have hslot : a.slots.get? (seqAt q) = some p := by
        rw [h.get?_of_lt (by omega) (by omega), hp]
      have hside : a.active.locate (seqAt q) = .inside := by
        rw [hact, Span.locate_inside hcq (by omega) (by omega)]
      rw [hslot]
      simp only [hside, htail, hts, seqAt_add_one]
      simpa using ih (by omega) (by omega) (fun j hj hjm => hall j (by omega) hjm)

theorem next?_eq {first : Packet} (h : Stored a.slots a.filled f t v)
    (hact : a.active = .between c t) (hf : f ≤ c) (hct : c < t) (hfirst : v c = some first) :
    a.next? = (a.scan first.timestamp 65536 (seqAt c)).map (first, ·) := by
  have hslot : a.slots.get? a.active.head = some first := by
    rw [hact, Span.between_head, h.get?_of_lt hf hct, hfirst]
  have hhead : a.active.head = seqAt c := by rw [hact]; rfl
  unfold next?
  rw [hslot, hhead]
  cases hscan : a.scan first.timestamp 65536 (seqAt c) <;> simp [hscan]

theorem next?_eq_none (h : Stored a.slots a.filled f t v) (hact : a.active = .between c t)
    (hf : f ≤ c) (hct : c < t) (hfirst : v c = none) : a.next? = none := by
  have hslot : a.slots.get? a.active.head = none := by
    rw [hact, Span.between_head, h.get?_of_lt hf hct, hfirst]
  unfold next?
  rw [hslot]
  rfl

/-! ## Samples -/

/-- The packets of a range in which none is missing. -/
theorem run_eq {s : Slots} {span : Span} (h : Stored s span f t v) (pk : Nat → Packet) {n : Nat}
    (hf : f ≤ c) (hct : c + n ≤ t) (hv : ∀ j, c ≤ j → j < c + n → v j = some (pk j)) :
    s.run n (seqAt c) = (List.range' c n).map pk := by
  induction n generalizing c with
  | zero => rfl
  | succ n ih =>
    have hslot : s.get? (seqAt c) = some (pk c) := by
      rw [h.get?_of_lt hf (by omega), hv c (Nat.le_refl _) (by omega)]
    rw [Slots.run, hslot, seqAt_add_one,
      ih (by omega) (by omega) (fun j hj hjn => hv j (by omega) (by omega))]
    simp [List.range'_succ]

/-- A sample is cut: it is ready, the active span begins behind it, and what is freed lies before
that. If nothing older was stored, the first slot of the sample is freed. -/
theorem take_spec (first : Packet) {codec : Depacketizer} {data : Bytes}
    (h : Stored a.slots a.filled f t v) (hact : a.active = .between c t) (hf : f ≤ c) (hce : c < e)
    (het : e ≤ t) (hjoin : a.codec.join (a.slots.run (e - c) (seqAt c)) [] = (codec, some data)) :
    ∃ f' r, a.take first (.between c e) = (r, true) ∧ Stored r.slots r.filled f' t v ∧
      r.active = .between e t ∧ f ≤ f' ∧ f' ≤ e ∧ (f = c → c < f') ∧ (f = c → e = t → f' = c + 1) ∧
      r.codec = codec ∧ r.ready = a.ready ++ [⟨data, elapsedNanos a.codec.clockRate first.timestamp
        (a.endOf first (.between c e))⟩] := by
  have hshort := h.short
  have hwidth : (Span.between c e).width = e - c := Span.width_between (by omega) (by omega)
  have hmoved : ({ a.active with head := (Span.between c e).tail } : Span) = .between e t := by
    rw [hact]
    rfl
  -- The state once the sample is ready; two slots at most are freed from it.
  let b : Assembler := { a with
    active := .between e t
    codec := codec
    ready := a.ready ++ [⟨data, elapsedNanos a.codec.clockRate first.timestamp
      (a.endOf first (.between c e))⟩] }
  have hb : Stored b.slots b.filled f t v := h
  obtain ⟨f₁, hf₁, hholder, hfirst, h₁⟩ := hb.release_within hf hce het
  -- The first release frees the sample's own slot or one before it, the second one more at most.
  have hf₁e : f₁ ≤ e := by
    rcases Nat.lt_or_ge f c with hlt | hge
    · have := hholder hlt
      omega
    · have := hfirst (by omega)
      omega
  obtain ⟨f₂, hf₂, hf₂', hempty, h₂⟩ :=
    h₁.release_active (c := e) (u := t) hf₁e het (Nat.le_refl _)
  refine ⟨f₂, (b.release (.between c e) true).release (.between e t) false, ?_, h₂, ?_, by omega,
    hf₂', fun heq => by have := hfirst heq; omega, fun heq hend => by
      have := hfirst heq
      have := hempty hend
      omega, ?_, ?_⟩
  · unfold take
    simp only [hmoved, hwidth, Span.between_head, hjoin]
    have hactive : (b.release (.between c e) true).active = .between e t := by simp [b]
    change ((b.release (.between c e) true).release (b.release (.between c e) true).active false,
      true) = _
    rw [hactive]
  · simp [b]
  · simp [b]
  · simp [b]

/-- A span without a head is given up: the active span begins behind it. -/
theorem skip_spec (h : Stored a.slots a.filled f t v) (hact : a.active = .between c t) (hf : f ≤ c)
    (hce : c < e) (het : e ≤ t) :
    ∃ f', Stored (a.skip (.between c e)).slots (a.skip (.between c e)).filled f' t v ∧
      (a.skip (.between c e)).active = .between e t ∧ f ≤ f' ∧ f' ≤ c + 1 ∧ (f = c → f' = c + 1) ∧
      (a.skip (.between c e)).codec = a.codec ∧ (a.skip (.between c e)).ready = a.ready := by
  have hshort := h.short
  obtain ⟨f₁, hf₁, hholder, hfirst, h₁⟩ := h.release_within hf hce het
  have hact₁ : (a.release (.between c e) true).active = .between c t := by simp [hact]
  have hslots : ∃ f', f₁ ≤ f' ∧ f' ≤ max f₁ c ∧
      Stored ((a.release (.between c e) true).release (.between c t) false).slots
        ((a.release (.between c e) true).release (.between c t) false).filled f' t v := by
    rcases Nat.lt_or_ge f₁ c with hlt | hge
    · -- There is something before the active span, which still begins at the sample.
      obtain ⟨f₂, hf₂, hf₂', -, h₂⟩ :=
        h₁.release_active (c := c) (u := t) (by omega) (by omega) (Nat.le_refl _)
      exact ⟨f₂, hf₂, by omega, h₂⟩
    · rw [h₁.release_inside hge (by omega)]
      exact ⟨f₁, Nat.le_refl _, by omega, h₁⟩
  obtain ⟨f₂, hf₂, hf₂', h₂⟩ := hslots
  have hskip : a.skip (.between c e) =
      { (a.release (.between c e) true).release (.between c t) false with
        active := .between e t } := by
    unfold skip
    simp only [hact₁, release_active, Span.between_tail]
    rfl
  rw [hskip]
  refine ⟨f₂, h₂, rfl, by omega, ?_, ?_, by simp, by simp⟩
  · rcases Nat.lt_or_ge f c with hlt | hge
    · have := hholder hlt
      omega
    · have := hfirst (by omega)
      omega
  · intro heq
    have := hfirst heq
    omega

/-! ## Building -/

theorem build_eq (purging : Bool) (hact : a.active = .between c u) (hcu : c < u)
    (hu : u < c + 65536) : a.build purging =
      match a.extend.next? with
      | none => (a.extend, false)
      | some (first, span) =>
        if !purging && !a.extend.slots.has span.tail then (a.extend, false)
        else if a.extend.codec.isHead first.payload then a.extend.take first span
        else (a.extend.skip span, false) := by
  have hempty : a.active.isEmpty = false := by
    rw [hact, Span.isEmpty_between (by omega) hu]
    simpa using (by omega : c ≠ u)
  unfold build
  rw [activate_eq hact hcu hu]
  cases hnext : a.extend.next? with
  | none => simp [hempty, hnext]
  | some next => simp [hempty, hnext]

/-! ## Popping -/

/-- The samples popped one after another, until there are none. -/
inductive Drains : Assembler → List Sample → Assembler → Prop where
  | done {a b : Assembler} (h : a.pop = (b, none)) : Drains a [] b
  | next {a b c : Assembler} {s : Sample} {ss : List Sample} (h : a.pop = (b, some s))
      (hrest : Drains b ss c) : Drains a (s :: ss) c

theorem pop_eq_none {b : Assembler} {made : Bool} (h : a.build false = (b, made))
    (hready : b.ready = []) : a.pop = (b, none) := by
  unfold pop
  rw [h]
  simp [hready]

theorem pop_eq_some {b : Assembler} {made : Bool} {s : Sample} {rest : List Sample}
    (h : a.build false = (b, made)) (hready : b.ready = s :: rest) :
    a.pop = ({ b with ready := rest }, some s) := by
  unfold pop
  rw [h]
  simp [hready]

theorem activate_activate (a : Assembler) : a.activate.activate = a.activate := by
  unfold activate
  by_cases hact : a.active.isEmpty
  · by_cases hfilled : a.filled.isEmpty <;> simp [hact, hfilled]
  · simp [hact]

/-- Cutting samples begins by choosing what is active. -/
theorem Drains.of_activate {b : Assembler} {ss : List Sample} (h : Drains a.activate ss b) :
    Drains a ss b := by
  have hpop : a.activate.pop = a.pop := by
    unfold pop build
    rw [activate_activate]
  cases h with
  | done h => exact .done (hpop ▸ h)
  | next h hrest => exact .next (hpop ▸ h) hrest

end Headend.Rtp.Assembler
