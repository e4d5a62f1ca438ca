import Headend.Proofs.Rtp.Opus

/-!
# Packets in order

What an assembler makes of Opus packets that arrive one after another, and how long their samples
last. The end of a sample is the timestamp of the next packet. That packet is looked up among the
numbers from the end of the sample to the end of the active span without wrapping; behind the
largest number the span ends at zero, nothing is found, and the sample before lasts no time.
-/

namespace Headend.Rtp

theorem seqAt_eq_last_iff {p : Nat} : seqAt p = 65535 ↔ p % 65536 = 65535 := by
  rw [← UInt16.toNat_inj, toNat_seqAt]
  rfl

/-- How long the sample of a packet lasts if this packet follows. -/
def lasting (p next : Packet) : Nat :=
  if next.sequence = 65535 then 0
  else elapsedNanos Codec.Opus.clockRate p.timestamp next.timestamp

theorem elapsedNanos_self (rate : Nat) (timestamp : UInt32) :
    elapsedNanos rate timestamp timestamp = 0 := by
  simp [elapsedNanos, quotientNanos]

namespace Assembler

variable {a : Assembler} {f c t : Nat} {v : Nat → Option Packet} {p next : Packet}

/-- The next packet is found, except behind the largest number. -/
theorem endOf_next (h : Stored a.slots a.filled f t v) (hf : f ≤ c) (ht : c + 2 = t)
    (hact : a.active = .between c t) (hnext : v (c + 1) = some next) :
    a.endOf p (.between c (c + 1)) =
      if seqAt (c + 1) = 65535 then p.timestamp else next.timestamp := by
  subst ht
  have hslot : a.slots.get? (seqAt (c + 1)) = some next := by
    rw [h.get?_of_lt (by omega) (by omega), hnext]
  rw [endOf, hact, Span.between_tail, Span.between_tail, toNat_seqAt, toNat_seqAt]
  by_cases hwrap : (c + 1) % 65536 = 65535
  · rw [if_pos (seqAt_eq_last_iff.2 hwrap), show (c + 2) % 65536 - (c + 1) % 65536 = 0 by omega]
    rfl
  · rw [if_neg fun heq => hwrap (seqAt_eq_last_iff.1 heq),
      show (c + 2) % 65536 - (c + 1) % 65536 = 1 by omega]
    simp [Slots.first?, hslot]

/-- An assembler that holds one packet, at this position, and nothing is ready. -/
structure Holding (position : Nat) (p : Packet) (a : Assembler) : Prop where
  exists_poised : ∃ v, Poised a position position (position + 1) v ∧ v position = some p
  ready : a.ready = []

/-- Nothing is to be had from it. -/
theorem Holding.drains (h : Holding c p a) : ∃ b, Drains a [] b ∧ Holding c p b := by
  obtain ⟨⟨v, hpoised, hv⟩, hready⟩ := h
  have hbuild : a.build false = (a.extend, false) := hpoised.build_alone fun hlt => by omega
  obtain ⟨hext, -, hkeep⟩ := hpoised.extend
  have hready' : a.extend.ready = [] := hkeep.trans hready
  exact ⟨a.extend, .done (pop_eq_none hbuild hready'), ⟨v, hext, hv⟩, hready'⟩

theorem Holding.first (hseq : seqAt c = p.sequence) (hpayload : p.payload ≠ []) :
    ∃ b, Drains ((new .opus).push p) [] b ∧ Holding c p b := by
  obtain ⟨hpoised, hready⟩ := Poised.first hseq hpayload
  obtain ⟨b, hdrains, hb⟩ := Holding.drains ⟨⟨_, hpoised, storeAt_self⟩, hready⟩
  exact ⟨b, hdrains.of_activate, hb⟩

/-- The next packet completes the one that was held. -/
theorem Holding.push (h : Holding c p a) (hseq : seqAt (c + 1) = next.sequence)
    (hpayload : next.payload ≠ []) :
    ∃ b, Drains (a.push next) [⟨p.payload, lasting p next⟩] b ∧ Holding (c + 1) next b := by
  obtain ⟨⟨v, hpoised, hv⟩, hready⟩ := h
  have hdepth : depth = 10 := rfl
  obtain ⟨hpushed, hkeep⟩ := hpoised.push_within hseq (Nat.le_succ c) (by omega) hpayload
  rw [Nat.max_eq_right (Nat.le_succ _)] at hpushed
  have hheld : storeAt c (c + 1) v (c + 1) next c = some p := by
    rw [storeAt_of_ne (by omega) (Nat.le_refl c) (Nat.lt_succ_self c), hv]
  obtain ⟨r, f', s, hbuild, hr, -, hfirst, hrready, hdata, hnanos⟩ :=
    hpushed.build_cut false hheld (Nat.lt_succ_self _) (.inr (by simp))
  obtain rfl := hfirst rfl
  obtain ⟨hext, hact, -⟩ := hpushed.extend
  rw [endOf_next hext.stored (Nat.le_refl c) rfl hact storeAt_self, hseq] at hnanos
  have hs : s = ⟨p.payload, lasting p next⟩ := by
    obtain ⟨data, nanos⟩ := s
    simp only at hdata hnanos
    rw [hdata, hnanos, lasting]
    split
    · rw [elapsedNanos_self]
    · rfl
  rw [hkeep, hready, List.nil_append, hs] at hrready
  obtain ⟨b, hdrains, hb⟩ := Holding.drains ⟨⟨_, hr.setReady [], storeAt_self⟩, rfl⟩
  exact ⟨b, .next (pop_eq_some hbuild hrready) hdrains, hb⟩

end Assembler

end Headend.Rtp
