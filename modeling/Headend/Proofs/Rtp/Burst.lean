import Headend.Proofs.Rtp.Opus
import Mathlib.Data.List.Perm.Subperm

/-!
# Bursts of Opus samples

How many samples one Opus packet can give, whatever it is and whatever came before. A sample is cut
from a packet that the cut passes, and the cut passes no packet twice. It cannot pass the last
packet stored, which waits for the one after it; so of the packets that fit into the window and the
one that comes, at least one gives no sample.

A packet without a payload is refused. The cut passes it all the same, and a purge then passes one
position more.
-/

namespace Headend.Rtp

variable {f t c c' q : Nat} {v : Nat → Option Packet} {p : Packet}

/-! ## Counting packets -/

/-- Where the last packet is still to come, one is missing. -/
theorem length_payloads_lt (hc : c ≤ c') (hc' : c' < t) (hlast : v (t - 1) ≠ none) :
    (payloads v c c').length < (payloads v c t).length := by
  obtain ⟨last, hlast⟩ := Option.ne_none_iff_exists'.1 hlast
  have hend : payloads v (t - 1) t = [last.payload] := by
    have hsucc := payloads_succ (v := v) (c := t - 1)
    rwa [show t - 1 + 1 = t by omega, hlast] at hsucc
  rw [← payloads_append (v := v) hc (show c' ≤ t by omega),
    ← payloads_append (v := v) (show c' ≤ t - 1 by omega) (Nat.sub_le t 1), hend]
  simp

/-- A packet stored is one more. -/
theorem length_payloads_storeAt (c t' : Nat) :
    (payloads (storeAt f t v q p) c t').length ≤ t - c + 1 := by
  let held := (List.range' c (t' - c)).filter fun j => (storeAt f t v q p j).isSome
  have hlength : (payloads (storeAt f t v q p) c t').length = held.length := by
    rw [payloads, List.length_map, List.length_filterMap_eq_countP, List.countP_eq_length_filter]
  have hheld : held ⊆ q :: List.range' c (t - c) := by
    intro j hj
    obtain ⟨hrange, hsome⟩ := List.mem_filter.1 hj
    by_cases hjq : j = q
    · exact hjq ▸ List.mem_cons_self
    · obtain ⟨hjt, -⟩ := of_storeAt_ne_none hjq (Option.isSome_iff_ne_none.1 hsome)
      have hcj := (List.mem_range'_1.1 hrange).1
      exact List.mem_cons_of_mem _ (List.mem_range'_1.2 ⟨hcj, by omega⟩)
  have hnodup : held.Nodup := List.Nodup.sublist List.filter_sublist List.nodup_range'
  simpa [hlength] using (List.Nodup.subperm hnodup hheld).length_le

namespace Assembler

/-! ## Cutting -/

namespace Standing

variable {a : Assembler}

/-- The packet at the cut is passed, and gives one sample or, refused, none. -/
theorem pass (h : Standing .opus a f c t v) (purging : Bool) (hp : v c = some p)
    (hlt : c + 1 < t) (hnext : purging = true ∨ v (c + 1) ≠ none) :
    ∃ r made f', a.build purging = (r, made) ∧ Standing .opus r f' (c + 1) t v ∧
      r.active = .between (c + 1) t ∧ f ≤ f' ∧ (f = c → f' = if made then c + 1 else c) ∧
      r.ready.length ≤ a.ready.length + 1 := by
  have hshort := h.stored.short
  have hle := h.le
  obtain ⟨hext, hact, hready⟩ := h.extend
  have hgo : (!purging && !a.extend.slots.has (seqAt (c + 1))) = false := by
    rcases hnext with rfl | hnext
    · rfl
    · obtain ⟨q, hq⟩ := Option.ne_none_iff_exists'.1 hnext
      simp [Slots.has, hext.stored.get?_of_lt (by omega) hlt, hq]
  have hbuild : a.build purging = a.extend.take p (.between c (c + 1)) := by
    rw [h.build_eq, hext.next?_opus hact hp]
    simp only [Span.between_tail, hgo, Bool.false_eq_true, if_false]
    simp [hext.codec, Depacketizer.isHead]
  have hrun : a.extend.slots.run (c + 1 - c) (seqAt c) = [p] := by
    rw [Nat.add_sub_cancel_left, run_eq hext.stored (fun _ => p) hle (by omega)
      (fun j hj hj' => by rw [show j = c by omega, hp])]
    rfl
  by_cases hpayload : p.payload = []
  · -- The sample is refused, and nothing is freed.
    have hjoin : a.extend.codec.join (a.extend.slots.run (Span.between c (c + 1)).width
        (Span.between c (c + 1)).head) [] = (.opus, none) := by
      rw [Span.width_between (Nat.le_succ c) (by omega), Span.between_head, hrun, hext.codec]
      simp [Depacketizer.join, Depacketizer.depacketize, Codec.Opus.depacketize, hpayload]
    have htake : a.extend.take p (.between c (c + 1)) =
        ({ a.extend with active := .between (c + 1) t, codec := .opus }, false) := by
      simp only [take, hjoin, hact, Span.between_tail]
      rfl
    refine ⟨_, false, f, by rw [hbuild, htake], ?_, rfl, Nat.le_refl f, fun heq => heq, ?_⟩
    · exact ⟨rfl, hext.stored, by omega, t, rfl, hlt, Nat.le_refl t⟩
    · simp [hready]
  · have hjoin : a.extend.codec.join (a.extend.slots.run (c + 1 - c) (seqAt c)) [] =
        (.opus, some p.payload) := by
      rw [hrun, hext.codec]
      simp [Depacketizer.join, Depacketizer.depacketize, Codec.Opus.depacketize, hpayload]
    obtain ⟨f', r, htake, hstored, hract, hff', hf', hfirst, -, hcodec, hrready⟩ :=
      take_spec p hext.stored hact hle (Nat.lt_succ_self c) (by omega) hjoin
    refine ⟨r, true, f', by rw [hbuild, htake], ?_, hract, hff', fun heq => ?_, ?_⟩
    · exact ⟨hcodec, hstored, hf', t, hract, hlt, Nat.le_refl t⟩
    · exact Nat.le_antisymm hf' (hfirst heq)
    · have hlength : r.ready.length = a.ready.length + 1 := by
        rw [hrready, hready, List.length_append, List.length_singleton]
      exact Nat.le_of_eq hlength

/-! ## Making room -/

/-- One round of a purge: the samples come of packets that the cut passes. -/
theorem purgeOldest_counted (h : Standing .opus a f c t v) (hwidth : f + 2 < t) :
    ∃ c', Standing .opus a.purgeOldest (f + 1) c' t v ∧ c ≤ c' ∧
      a.purgeOldest.ready.length ≤ a.ready.length + (payloads v c c').length := by
  rcases Nat.lt_or_ge f c with hlt | hge
  · obtain ⟨hdrop, hready⟩ := h.purgeOldest_of_lt hlt
    exact ⟨c, hdrop, Nat.le_refl c, by simp [hready]⟩
  · obtain rfl : f = c := Nat.le_antisymm h.le hge
    rw [h.purgeOldest_of_eq]
    cases hp : v f with
    | none =>
      obtain ⟨hext, hact, hready⟩ := h.extend
      rw [h.build_gap hp]
      refine ⟨f + 1, ⟨hext.codec, hext.stored.erase (by omega), Nat.le_refl _, t, ?_, by omega,
        Nat.le_refl t⟩, Nat.le_succ f, ?_⟩
      · change ({ a.extend.active with head := a.extend.active.head + 1 } : Span) = _
        rw [hact, Span.between_succ]
      · change a.extend.ready.length ≤ _
        rw [hready]
        exact Nat.le_add_right _ _
    | some p =>
      have hone : (payloads v f (f + 1)).length = 1 := by simp [payloads_succ, hp]
      obtain ⟨r, made, f', hbuild, hr, hact, -, hf', hready⟩ :=
        h.pass true hp (by omega) (.inl rfl)
      rw [hbuild]
      cases made with
      | true =>
        obtain rfl : f' = f + 1 := hf' rfl
        exact ⟨f + 1, hr, Nat.le_succ f, by rw [hone]; exact hready⟩
      | false =>
        -- The packet is refused: its slot goes, and the cut moves past the next position, too.
        obtain rfl : f = f' := (hf' rfl).symm
        refine ⟨f + 2, ⟨hr.codec, hr.stored.erase (by omega), by omega, t, ?_, hwidth,
          Nat.le_refl t⟩, by omega, ?_⟩
        · change ({ r.active with head := r.active.head + 1 } : Span) = _
          rw [hact, Span.between_succ]
        · have happend :
              payloads v f (f + 1) ++ payloads v (f + 1) (f + 2) = payloads v f (f + 2) :=
            payloads_append (Nat.le_succ f) (Nat.le_succ (f + 1))
          have hlength := congrArg List.length happend
          rw [List.length_append, hone] at hlength
          change r.ready.length ≤ _
          omega

theorem purge_counted (h : Standing .opus a f c t v) (fuel : Nat)
    (hwidth : t - f < 65536 - depth) (hfuel : t - f ≤ fuel + depth) :
    ∃ f' c', Standing .opus (purge fuel a) f' c' t v ∧ f ≤ f' ∧ t - f' ≤ depth ∧ c ≤ c' ∧
      (purge fuel a).ready.length ≤ a.ready.length + (payloads v c c').length := by
  induction fuel generalizing a f c with
  | zero => exact ⟨f, c, h, by omega, by omega, by omega, Nat.le_add_right _ _⟩
  | succ fuel ih =>
    by_cases hdepth : t - f ≤ depth
    · rw [purge_eq_self h.stored hdepth]
      exact ⟨f, c, h, by omega, hdepth, by omega, Nat.le_add_right _ _⟩
    · have htwo : 2 ≤ depth := by decide
      obtain ⟨c₁, h₁, hc₁, hready₁⟩ := h.purgeOldest_counted (by omega)
      obtain ⟨f', c', h', hf', hdepth', hc', hready⟩ := ih h₁ (by omega) (by omega)
      rw [purge_eq_purge h.stored (by omega) hwidth]
      refine ⟨f', c', h', by omega, hdepth', by omega, ?_⟩
      rw [← payloads_append hc₁ hc', List.length_append]
      omega

/-! ## Pushing -/

/-- A packet is stored and room is made; what is ready then comes of packets that the cut passed. -/
theorem push_counted (h : Standing .opus a f c t v) (hwidth : t - f ≤ depth) (hbase : 65536 ≤ f)
    (hready : a.ready = []) :
    ∃ q f' c', Standing .opus (a.push p) f' c' (max t (q + 1)) (storeAt f t v q p) ∧
      max t (q + 1) - f' ≤ depth ∧ c ≤ c' ∧
      (a.push p).ready.length ≤ (payloads (storeAt f t v q p) c c').length := by
  have hle := h.le
  have hlt := h.lt
  obtain ⟨q, f₁, t₁, hq, hstored, hf₁, hf₁q, hqt, rfl, hwidth₁⟩ :=
    h.stored.place p (by omega) hwidth hbase p.sequence
  have hstanding := h.store hf₁ (by omega) hstored
  obtain ⟨f₂, h₂, hf₂⟩ := hstanding.release
  obtain ⟨f', c', h', -, hdepth, hc', hready'⟩ :=
    h₂.purge_counted 65536 (by omega) (by omega)
  refine ⟨q, f', c', h', hdepth, hc', ?_⟩
  have hnone : ((a.store p).release (a.store p).active false).ready.length = 0 := by
    rw [release_ready]
    simp [Assembler.store, hready]
  rw [hnone, Nat.zero_add] at hready'
  exact hready'

/-! ## Draining -/

/-- Draining moves the cut, and what comes out was ready or comes of packets that it passes. -/
theorem drains_counted (h : Standing .opus a f c t v) :
    ∃ ss b f' c', Drains a ss b ∧ Standing .opus b f' c' t v ∧ b.ready = [] ∧ f ≤ f' ∧ c ≤ c' ∧
      ss.length ≤ a.ready.length + (payloads v c c').length := by
  -- Each pop moves the cut or shortens the queue.
  induction hn : t - c + a.ready.length using Nat.strongRecOn generalizing a f c with
  | ind n ih =>
    subst hn
    -- Wherever one build leaves the assembler, the rest follows.
    have hpop : ∀ {r : Assembler} {made : Bool} {f₁ c₁ : Nat}, a.build false = (r, made) →
        Standing .opus r f₁ c₁ t v → f ≤ f₁ → c ≤ c₁ → c₁ ≤ c + 1 →
        r.ready.length ≤ a.ready.length + (payloads v c c₁).length →
        ∃ ss b f' c', Drains a ss b ∧ Standing .opus b f' c' t v ∧ b.ready = [] ∧ f ≤ f' ∧
          c ≤ c' ∧ ss.length ≤ a.ready.length + (payloads v c c').length := by
      intro r made f₁ c₁ hbuild hr hf₁ hc₁ hone hready
      have hlt := hr.lt
      have hpassed := length_payloads_le v c c₁
      cases hrest : r.ready with
      | nil =>
        exact ⟨[], r, f₁, c₁, .done (pop_eq_none hbuild hrest), hr, hrest, hf₁, hc₁, Nat.zero_le _⟩
      | cons s rest =>
        rw [hrest, List.length_cons] at hready
        obtain ⟨ss, b, f', c', hdrains, hb, hbready, hf', hc', hlength⟩ :=
          ih _ (by simp only; omega) (hr.setReady rest) rfl
        refine ⟨s :: ss, b, f', c', .next (pop_eq_some hbuild hrest) hdrains, hb, hbready, by omega,
          by omega, ?_⟩
        rw [← payloads_append hc₁ hc', List.length_append, List.length_cons]
        simp only at hlength
        omega
    by_cases hcut : v c ≠ none ∧ c + 1 < t ∧ v (c + 1) ≠ none
    · obtain ⟨hp, hlt, hnext⟩ := hcut
      obtain ⟨p, hp⟩ := Option.ne_none_iff_exists'.1 hp
      obtain ⟨r, made, f₁, hbuild, hr, -, hf₁, -, hready⟩ := h.pass false hp hlt (.inr hnext)
      have hone : (payloads v c (c + 1)).length = 1 := by simp [payloads_succ, hp]
      exact hpop hbuild hr hf₁ (Nat.le_succ c) (Nat.le_refl _) (by rw [hone]; exact hready)
    · have hbuild : a.build false = (a.extend, false) := by
        cases hp : v c with
        | none => exact h.build_gap hp
        | some p =>
          exact h.build_alone fun hlt => Classical.byContradiction fun hne =>
            hcut ⟨by simp [hp], hlt, hne⟩
      obtain ⟨hext, -, hready⟩ := h.extend
      exact hpop hbuild hext (Nat.le_refl f) (Nat.le_refl c) (Nat.le_succ c)
        (by rw [hready]; exact Nat.le_add_right _ _)

end Standing

/-! ## Runs -/

/-- An assembler of Opus packets between two packets: none has come yet, or the last one stored is
the last of the stored range. -/
inductive Steady : Assembler → Prop where
  | start : Steady (.new .opus)
  | running {a : Assembler} {f c t : Nat} {v : Nat → Option Packet}
      (hstanding : Standing .opus a f c t v) (hready : a.ready = []) (hnarrow : t - f ≤ depth)
      (hhigh : 65536 + depth ≤ t) (hlast : v (t - 1) ≠ none) : Steady a

/-- A packet gives no more samples than the window holds packets. -/
theorem Steady.push {a : Assembler} (h : Steady a) (p : Packet) :
    ∃ ss b, Drains (a.push p) ss b ∧ Steady b ∧ ss.length ≤ depth := by
  cases h with
  | start =>
    obtain ⟨q, hbase, -, hq⟩ := exists_seqAt p.sequence (65536 + depth)
    obtain ⟨hfirst, hready⟩ := Standing.first .opus hq
    obtain ⟨ss, b, f', c', hdrains, hb, hbready, hf', hc', hlength⟩ := hfirst.drains_counted
    have hone : 1 ≤ depth := by decide
    have hpassed := length_payloads_le (storeAt q q (fun _ => none) q p) q c'
    have hlt := hb.lt
    rw [hready, List.length_nil] at hlength
    exact ⟨ss, b, hdrains.of_activate, .running hb hbready (by omega) (by omega) (by simp),
      by omega⟩
  | @running _ f c t v hstanding hready₀ hnarrow₀ hhigh hlast₀ =>
    have hle := hstanding.le
    have hlt := hstanding.lt
    obtain ⟨q, f₁, c₁, h₁, hnarrow, hc₁, hready⟩ :=
      hstanding.push_counted (p := p) hnarrow₀ (by omega) hready₀
    obtain ⟨ss, b, f', c', hdrains, hb, hbready, hf', hc', hlength⟩ := h₁.drains_counted
    have hlast : storeAt f t v q p (max t (q + 1) - 1) ≠ none := by
      rcases Nat.lt_or_ge q t with hqt | hge
      · by_cases hqlast : t - 1 = q
        · rw [show max t (q + 1) - 1 = q by omega]
          simp
        · rw [show max t (q + 1) - 1 = t - 1 by omega,
            storeAt_of_ne hqlast (by omega) (by omega)]
          exact hlast₀
      · rw [show max t (q + 1) - 1 = q by omega]
        simp
    refine ⟨ss, b, hdrains, .running hb hbready (by omega) (by omega) hlast, ?_⟩
    -- All samples come of packets between the old cut and the new one, which is not the last.
    have hpassed := length_payloads_lt (Nat.le_trans hc₁ hc') hb.lt hlast
    have hall := length_payloads_storeAt (f := f) (t := t) (v := v) (q := q) (p := p) c
      (max t (q + 1))
    rw [← payloads_append hc₁ hc', List.length_append] at hpassed
    omega

end Assembler

end Headend.Rtp
