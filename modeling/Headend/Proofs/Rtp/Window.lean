import Headend.Proofs.Rtp.Opus

/-!
# Reordering within the window

The packets of a stream come in some order, and the range of those that wait never gets wider than
`depth`. Then nothing is given up: a packet becomes a sample as soon as all packets up to the one
after it are there.
-/

namespace Headend.Rtp

/-- All packets up to the one after `i` are there. -/
def Complete (arrived : List Nat) (i : Nat) : Prop := ∀ j < i + 2, j ∈ arrived

instance (arrived : List Nat) (i : Nat) : Decidable (Complete arrived i) :=
  inferInstanceAs (Decidable (∀ j < i + 2, j ∈ arrived))

/-- The packets that arrived, by position. -/
def arrivedView (pkt : Nat → Packet) (base : Nat) (arrived : List Nat) (q : Nat) : Option Packet :=
  if base ≤ q ∧ q - base ∈ arrived then some (pkt (q - base)) else none

variable {pkt : Nat → Packet} {base e i m : Nat} {arrived : List Nat}

theorem payload_of_arrivedView (h : ∀ j ∈ arrived, (pkt j).payload ≠ []) {q : Nat} {p : Packet}
    (hq : arrivedView pkt base arrived q = some p) : p.payload ≠ [] := by
  unfold arrivedView at hq
  split at hq
  · rename_i hmem
    obtain rfl := Option.some.inj hq
    exact h _ hmem.2
  · cases hq

theorem arrivedView_add : arrivedView pkt base arrived (base + i) =
    if i ∈ arrived then some (pkt i) else none := by
  simp [arrivedView]

/-- The view with a new packet stored is that of one more arrival. -/
theorem storeAt_arrivedView {f q : Nat} (htop : ∀ j ∈ arrived, j ≤ m) (hq : f ≤ q) :
    storeAt f (base + m + 1) (arrivedView pkt base arrived) (base + i) (pkt i) q =
      arrivedView pkt base (arrived ++ [i]) q := by
  rcases Nat.lt_or_ge q base with hlt | hge
  · -- Nothing arrives before the first position.
    have hout : ∀ arrived, arrivedView pkt base arrived q = none := fun arrived => by
      simp [arrivedView, Nat.not_le.2 hlt]
    rw [storeAt, if_neg (by omega), hout, hout, ite_self]
  · obtain ⟨j, rfl⟩ : ∃ j, q = base + j := ⟨q - base, by omega⟩
    rw [arrivedView_add, storeAt]
    by_cases hji : j = i
    · simp [hji]
    · have hmem : j ∈ arrived ++ [i] ↔ j ∈ arrived := by simp [hji]
      rw [if_neg (by omega), arrivedView_add]
      by_cases hjm : j ≤ m
      · rw [if_pos (by omega)]
        simp [hmem]
      · have hout : j ∉ arrived := fun hj => hjm (htop j hj)
        rw [if_neg (by omega)]
        simp [hout, hji]

theorem le_max_of_mem_concat (htop : ∀ j ∈ arrived, j ≤ m) {j : Nat} (hj : j ∈ arrived ++ [i]) :
    j ≤ max m i := by
  rw [List.mem_append, List.mem_singleton] at hj
  rcases hj with hj | rfl
  · exact Nat.le_trans (htop j hj) (Nat.le_max_left ..)
  · exact Nat.le_max_right ..

theorem max_mem_concat (hlast : m ∈ arrived) : max m i ∈ arrived ++ [i] := by
  rcases Nat.le_total m i with hle | hle
  · simp [Nat.max_eq_right hle]
  · rw [Nat.max_eq_left hle]
    exact List.mem_append_left _ hlast

namespace Assembler

/-- An assembler that has cut the packets before `e` and waits for the one after `e`; `m` is the
largest that arrived. -/
structure Windowed (pkt : Nat → Packet) (base : Nat) (arrived : List Nat) (e m : Nat)
    (a : Assembler) : Prop where
  poised : Poised a (base + e) (base + e) (base + m + 1) (arrivedView pkt base arrived)
  ready : a.ready = []
  upto : ∀ j ≤ e, j ∈ arrived
  gap : e + 1 ∉ arrived
  top : ∀ j ∈ arrived, j ≤ m
  last : m ∈ arrived

variable {a : Assembler}

theorem Windowed.complete_iff (h : Windowed pkt base arrived e m a) :
    Complete arrived i ↔ i < e := by
  constructor
  · intro hi
    refine Nat.lt_of_not_le fun hge => h.gap ?_
    exact hi (e + 1) (by omega)
  · intro hi j hj
    exact h.upto j (by omega)

theorem Poised.congr {f c t : Nat} {v w : Nat → Option Packet} (h : Poised a f c t v)
    (hvw : ∀ q, f ≤ q → q < t → v q = w q) (hw : ∀ q p, w q = some p → p.payload ≠ []) :
    Poised a f c t w :=
  ⟨h.toStanding.congr hvw, hw⟩

/-- Draining goes on to the next packet that has not arrived. -/
theorem Windowed.drain (pkt : Nat → Packet) (base e m : Nat)
    (h : Poised a (base + e) (base + e) (base + m + 1) (arrivedView pkt base arrived))
    (hready₀ : a.ready = []) (hupto₀ : ∀ j ≤ e, j ∈ arrived) (htop : ∀ j ∈ arrived, j ≤ m)
    (hlast : m ∈ arrived) :
    ∃ ss b e', Drains a ss b ∧ Windowed pkt base arrived e' m b ∧ e ≤ e' ∧ ss.length + e ≤ m ∧
      ss.map (·.data) = (List.range' e (e' - e)).map fun i => (pkt i).payload := by
  obtain ⟨ss, b, f', c', hdrains, hb, hready, -, hc', hfirst, hdata, hall, hstop⟩ := h.drains
  obtain rfl := hfirst rfl
  obtain ⟨e', rfl⟩ : ∃ e', f' = base + e' := ⟨f' - base, by omega⟩
  have hlt := hb.lt
  -- A packet is cut only if the one after it is there, too.
  have hpresent : ∀ j, e ≤ j → j < e' → j ∈ arrived ∧ j + 1 ∈ arrived := by
    intro j hj hj'
    have := hall (base + j) (by omega) (by omega)
    rw [Nat.add_assoc, arrivedView_add, arrivedView_add] at this
    simpa using this
  have hupto : ∀ j ≤ e', j ∈ arrived := by
    intro j hj
    rcases Nat.lt_or_ge e j with hlt' | hge
    · have := (hpresent (j - 1) (by omega) (by omega)).2
      rwa [Nat.sub_add_cancel (by omega)] at this
    · exact hupto₀ j hge
  -- It stops where the next packet is missing, for the one at the cut has arrived.
  have hgap : e' + 1 ∉ arrived := by
    intro hmem
    have hle := htop _ hmem
    have hnone := hstop (by simp [arrivedView_add, hupto e' (Nat.le_refl _)]) (by omega)
    rw [Nat.add_assoc, arrivedView_add, if_pos hmem] at hnone
    cases hnone
  have hpayloads : payloads (arrivedView pkt base arrived) (base + e) (base + e') =
      (List.range' e (e' - e)).map fun i => (pkt i).payload := by
    have hview : ∀ q, base + e ≤ q → q < base + e + (e' - e) →
        arrivedView pkt base arrived q = some (pkt (q - base)) := by
      intro q hq hq'
      obtain ⟨j, rfl⟩ : ∃ j, q = base + j := ⟨q - base, by omega⟩
      rw [arrivedView_add, if_pos (hpresent j (by omega) (by omega)).1, Nat.add_sub_cancel_left]
    rw [show base + e' = base + e + (e' - e) by omega, payloads_of_some hview,
      List.range'_eq_map_range, List.range'_eq_map_range]
    simp [Nat.add_assoc]
  rw [hready₀, List.map_nil, List.nil_append, hpayloads] at hdata
  have hlen := congrArg List.length hdata
  simp only [List.length_map, List.length_range'] at hlen
  exact ⟨ss, b, e', hdrains, ⟨hb, hready, hupto, hgap, htop, hlast⟩, by omega, by omega, hdata⟩

/-- One packet within the window. -/
theorem Windowed.push (h : Windowed pkt base arrived e m a) (hnew : i ∉ arrived)
    (hi : i < e + depth) (hm : m < e + depth) (hseq : seqAt (base + i) = (pkt i).sequence)
    (hpayload : ∀ j ∈ arrived ++ [i], (pkt j).payload ≠ []) :
    ∃ ss b e', Drains (a.push (pkt i)) ss b ∧ Windowed pkt base (arrived ++ [i]) e' (max m i) b ∧
      e ≤ e' ∧ ss.length < depth ∧
      ss.map (·.data) = (List.range' e (e' - e)).map fun i => (pkt i).payload := by
  -- A new packet lies behind the cut, as all up to there have arrived.
  have hei : e < i := Nat.lt_of_not_le fun hle => hnew (h.upto i hle)
  have hmax : max (base + m + 1) (base + i + 1) = base + max m i + 1 := by omega
  obtain ⟨hpushed, hready⟩ := h.poised.push_within hseq (by omega) (by omega)
    (hpayload i (by simp))
  rw [hmax] at hpushed
  have hview : Poised (a.push (pkt i)) (base + e) (base + e) (base + max m i + 1)
      (arrivedView pkt base (arrived ++ [i])) :=
    hpushed.congr (fun q hq _ => storeAt_arrivedView h.top hq) fun q p hq =>
      payload_of_arrivedView hpayload hq
  obtain ⟨ss, b, e', hdrains, hb, hee', hlen, hdata⟩ := Windowed.drain pkt base e (max m i) hview
    (by rw [hready, h.ready]) (fun j hj => List.mem_append_left _ (h.upto j hj))
    (fun j hj => le_max_of_mem_concat h.top hj) (max_mem_concat h.last)
  exact ⟨ss, b, e', hdrains, hb, hee', by omega, hdata⟩

/-- The first packet of the stream. -/
theorem Windowed.first (hseq : seqAt base = (pkt 0).sequence) (hpayload : (pkt 0).payload ≠ []) :
    ∃ b, Drains ((new .opus).push (pkt 0)) [] b ∧ Windowed pkt base [0] 0 0 b := by
  obtain ⟨hfirst, hready⟩ := Poised.first hseq hpayload
  have hview : Poised ((new .opus).push (pkt 0)).activate (base + 0) (base + 0) (base + 0 + 1)
      (arrivedView pkt base [0]) := by
    have hall : ∀ j ∈ [0], (pkt j).payload ≠ [] := by
      intro j hj
      rw [List.mem_singleton.1 hj]
      exact hpayload
    refine hfirst.congr (fun q hq hqt => ?_) fun q p hq => payload_of_arrivedView hall hq
    obtain rfl : q = base := by omega
    simp [storeAt, arrivedView]
  obtain ⟨ss, b, e', hdrains, hb, -, hlen, -⟩ := Windowed.drain pkt base 0 0
    hview hready (fun j hj => by simp [Nat.le_zero.1 hj])
    (by simp) (by simp)
  obtain rfl : ss = [] := List.eq_nil_of_length_eq_zero (by omega)
  have hlt := hb.poised.lt
  obtain rfl : e' = 0 := by omega
  exact ⟨b, hdrains.of_activate, hb⟩

end Assembler

end Headend.Rtp
