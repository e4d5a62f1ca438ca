import Headend.Proofs.Rtp.Opus
import Mathlib.Data.List.Chain

/-!
# Where samples come from

`Trail` follows the packets of a stream from the write that brought each of them to the sample it
became. A packet that was cut never comes up again, and between one cut and the next lies at most
half a circle: a packet is stored within half a circle of those stored already, the last of them
stays stored, and no packet in between is passed over.
-/

namespace Headend.Rtp

/-- The packet that a write brought. -/
def Brought (packets : List Bytes) (i : Nat) (p : Packet) : Prop :=
  ∃ raw, packets[i]? = some raw ∧ Packet.parse raw = .ok p

/-- A packet that became a sample. -/
structure Delivery where
  /-- The write that brought it. -/
  write : Nat
  packet : Packet

/-- Half a circle at most, and not nothing. -/
def Ahead (x y : UInt16) : Prop := 1 ≤ (y - x).toNat ∧ (y - x).toNat ≤ 32768

theorem ahead_seqAt {p q : Nat} (h : p < q) (hq : q ≤ p + 32768) : Ahead (seqAt p) (seqAt q) := by
  unfold Ahead
  rw [toNat_seqAt_sub (by omega) (by omega)]
  omega

theorem Brought.lt {packets : List Bytes} {i : Nat} {p : Packet} (h : Brought packets i p) :
    i < packets.length := by
  obtain ⟨raw, hraw, -⟩ := h
  exact (List.getElem?_eq_some_iff.1 hraw).1

theorem Brought.concat {packets : List Bytes} {i : Nat} {p : Packet} (h : Brought packets i p)
    (raw : Bytes) : Brought (packets ++ [raw]) i p := by
  have hlt := h.lt
  obtain ⟨r, hr, hparse⟩ := h
  exact ⟨r, by rw [List.getElem?_append_left hlt, hr], hparse⟩

/-- The packets stored from `c` to `t`, with the write `w j` that brought the one at `j`, and those
cut so far, with their positions. -/
structure Trail (packets : List Bytes) (v : Nat → Option Packet) (w : Nat → Nat) (c t : Nat)
    (cuts : List (Nat × Delivery)) : Prop where
  stored : ∀ j p, c ≤ j → j < t → v j = some p → Brought packets (w j) p ∧ seqAt j = p.sequence
  fresh : ∀ j, c ≤ j → j < t → v j ≠ none → ∀ d ∈ cuts, d.2.write ≠ w j
  distinct : ∀ i j, c ≤ i → i < j → j < t → v i ≠ none → v j ≠ none → w i ≠ w j
  last : v (t - 1) ≠ none
  /-- From each packet stored it is not far to the next one. -/
  near : ∀ i, c ≤ i → i + 1 < t → v i ≠ none →
    ∃ j, i < j ∧ j < t ∧ j ≤ i + 32768 ∧ v j ≠ none
  /-- Nor is it from the packet cut last. -/
  link : ∀ d ∈ cuts.getLast?, ∃ j, c ≤ j ∧ j < t ∧ j ≤ d.1 + 32768 ∧ v j ≠ none
  cut : ∀ d ∈ cuts, Brought packets d.2.write d.2.packet ∧ seqAt d.1 = d.2.packet.sequence ∧ d.1 < c
  nodup : (cuts.map (·.2.write)).Nodup
  chain : cuts.IsChain fun d d' => d.1 < d'.1 ∧ d'.1 ≤ d.1 + 32768

namespace Trail

variable {packets : List Bytes} {v : Nat → Option Packet} {w : Nat → Nat} {f c c' t q : Nat}
  {cuts : List (Nat × Delivery)} {p : Packet} {raw : Bytes}

/-- Bytes that are no packet leave no trail. -/
theorem concat (h : Trail packets v w c t cuts) (raw : Bytes) :
    Trail (packets ++ [raw]) v w c t cuts where
  stored j p hj hjt hv := ⟨(h.stored j p hj hjt hv).1.concat raw, (h.stored j p hj hjt hv).2⟩
  fresh := h.fresh
  distinct := h.distinct
  last := h.last
  near := h.near
  link := h.link
  cut d hd := ⟨(h.cut d hd).1.concat raw, (h.cut d hd).2⟩
  nodup := h.nodup
  chain := h.chain

/-- The first packet. -/
theorem first (packets : List Bytes) (hparse : Packet.parse raw = .ok p)
    (hq : seqAt q = p.sequence) :
    Trail (packets ++ [raw]) (storeAt q q (fun _ => none) q p) (fun _ => packets.length) q (q + 1)
      [] where
  stored j p' hj hjt hv := by
    obtain rfl : j = q := by omega
    obtain rfl : p = p' := by simpa [storeAt] using hv
    exact ⟨⟨raw, by simp, hparse⟩, hq⟩
  fresh := by simp
  distinct i j hi hij hj := by omega
  last := by simp [storeAt]
  near i hi hhit := by omega
  link := by simp
  cut := by simp
  nodup := .nil
  chain := .nil

section Store

variable (h : Trail packets v w c t cuts)

include h

/-- A packet stored before was brought by one of the writes so far. -/
theorem store_old {j : Nat} (hjq : j ≠ q) (hcj : c ≤ j) (hj : storeAt f t v q p j ≠ none) :
    w j < packets.length := by
  obtain ⟨hjt, hvj, -⟩ := of_storeAt_ne_none hjq hj
  obtain ⟨p', hp'⟩ := Option.ne_none_iff_exists'.1 hvj
  exact (h.stored j p' hcj hjt hp').1.lt

theorem store_stored (hparse : Packet.parse raw = .ok p) (hq : seqAt q = p.sequence) {j : Nat}
    {p' : Packet} (hcj : c ≤ j) (hj : storeAt f t v q p j = some p') :
    Brought (packets ++ [raw]) (if j = q then packets.length else w j) p' ∧
      seqAt j = p'.sequence := by
  by_cases hjq : j = q
  · subst hjq
    obtain rfl : p = p' := by simpa using hj
    rw [if_pos rfl]
    exact ⟨⟨raw, by simp, hparse⟩, hq⟩
  · have hne : storeAt f t v q p j ≠ none := by simp [hj]
    obtain ⟨hjt, -, heq⟩ := of_storeAt_ne_none hjq hne
    rw [heq] at hj
    obtain ⟨hbrought, hseq⟩ := h.stored j p' hcj hjt hj
    rw [if_neg hjq]
    exact ⟨hbrought.concat raw, hseq⟩

/-- The new write is none of those whose packets were cut. -/
theorem store_fresh {j : Nat} (hcj : c ≤ j) (hj : storeAt f t v q p j ≠ none) :
    ∀ d ∈ cuts, d.2.write ≠ if j = q then packets.length else w j := by
  intro d hd
  by_cases hjq : j = q
  · rw [if_pos hjq]
    exact Nat.ne_of_lt (h.cut d hd).1.lt
  · obtain ⟨hjt, hvj, -⟩ := of_storeAt_ne_none hjq hj
    rw [if_neg hjq]
    exact h.fresh j hcj hjt hvj d hd

/-- Nor is it one of those whose packets are stored. -/
theorem store_distinct {i j : Nat} (hci : c ≤ i) (hij : i < j) (hi : storeAt f t v q p i ≠ none)
    (hj : storeAt f t v q p j ≠ none) :
    (if i = q then packets.length else w i) ≠ if j = q then packets.length else w j := by
  by_cases hiq : i = q
  · have hjq : j ≠ q := by omega
    rw [if_pos hiq, if_neg hjq]
    exact Nat.ne_of_gt (h.store_old hjq (by omega) hj)
  · rw [if_neg hiq]
    by_cases hjq : j = q
    · rw [if_pos hjq]
      exact Nat.ne_of_lt (h.store_old hiq hci hi)
    · obtain ⟨hjt, hvj, -⟩ := of_storeAt_ne_none hjq hj
      obtain ⟨-, hvi, -⟩ := of_storeAt_ne_none hiq hi
      rw [if_neg hjq]
      exact h.distinct i j hci hij hjt hvi hvj

/-- A packet is stored within half a circle. -/
theorem store (hparse : Packet.parse raw = .ok p) (hq : seqAt q = p.sequence)
    (hqt : q ≤ t + 32767) (hf : f ≤ c) (hct : c < t) (htc : t ≤ c + 32768) :
    Trail (packets ++ [raw]) (storeAt f t v q p) (fun j => if j = q then packets.length else w j)
      c (max t (q + 1)) cuts := by
  have hkeep : ∀ j, c ≤ j → j < t → v j ≠ none → storeAt f t v q p j ≠ none := by
    intro j hcj hjt hj
    by_cases hjq : j = q
    · simp [hjq]
    · rwa [storeAt_of_ne hjq (by omega) hjt]
  have hnew : storeAt f t v q p q ≠ none := by simp
  have hlast := hkeep (t - 1) (by omega) (by omega) h.last
  refine ⟨fun j p' hcj _ hj => h.store_stored hparse hq hcj hj,
    fun j hcj _ hj => h.store_fresh hcj hj,
    fun i j hci hij _ hi hj => h.store_distinct hci hij hi hj, ?_, ?_, ?_, ?_, h.nodup, h.chain⟩
  · rcases Nat.lt_or_ge q t with hlt | hge
    · rw [Nat.max_eq_left (by omega)]
      exact hlast
    · rw [Nat.max_eq_right (by omega)]
      exact hnew
  · intro i hci hhit hi
    by_cases hiq : i = q
    · -- Behind the new packet comes the old end.
      exact ⟨t - 1, by omega, by omega, by omega, hlast⟩
    · obtain ⟨-, hvi, -⟩ := of_storeAt_ne_none hiq hi
      rcases Nat.lt_or_ge (i + 1) t with hlt | hge
      · obtain ⟨j, hij, hjt, hnear, hj⟩ := h.near i hci hlt hvi
        exact ⟨j, hij, by omega, hnear, hkeep j (by omega) hjt hj⟩
      · -- Behind the old end comes the new packet, if it is there at all.
        exact ⟨q, by omega, by omega, by omega, hnew⟩
  · intro d hd
    obtain ⟨j, hcj, hjt, hnear, hj⟩ := h.link d hd
    exact ⟨j, hcj, by omega, hnear, hkeep j hcj hjt hj⟩
  · intro d hd
    obtain ⟨hbrought, hseq, hlt⟩ := h.cut d hd
    exact ⟨hbrought.concat raw, hseq, hlt⟩

end Store

/-- The cut moves past one position. -/
theorem succ (h : Trail packets v w c t cuts) (hct : c + 1 < t) :
    ∃ new, (new.map (·.2.packet.payload)) = (v c).toList.map (·.payload) ∧
      Trail packets v w (c + 1) t (cuts ++ new) := by
  cases hv : v c with
  | none =>
    -- Nothing is cut, and the packet that the last cut is near to lies farther on.
    refine ⟨[], rfl, ?_⟩
    rw [List.append_nil]
    refine ⟨fun j p hj => h.stored j p (by omega), fun j hj => h.fresh j (by omega),
      fun i j hi => h.distinct i j (by omega), h.last, fun i hi => h.near i (by omega), ?_,
      fun d hd => ?_, h.nodup, h.chain⟩
    · intro d hd
      obtain ⟨j, hcj, hjt, hnear, hj⟩ := h.link d hd
      have hne : j ≠ c := fun heq => hj (heq ▸ hv)
      exact ⟨j, by omega, hjt, hnear, hj⟩
    · obtain ⟨hb, hseq, hlt⟩ := h.cut d hd
      exact ⟨hb, hseq, by omega⟩
  | some p =>
    -- The packet becomes the last one cut; `near` of it becomes `link`.
    have hvc : v c ≠ none := by simp [hv]
    refine ⟨[(c, ⟨w c, p⟩)], rfl, ?_⟩
    refine ⟨fun j p hj => h.stored j p (by omega), fun j hj hjt hvj d hd => ?_,
      fun i j hi => h.distinct i j (by omega), h.last, fun i hi => h.near i (by omega), ?_,
      fun d hd => ?_, ?_, ?_⟩
    · rw [List.mem_append, List.mem_singleton] at hd
      rcases hd with hd | rfl
      · exact h.fresh j (by omega) hjt hvj d hd
      · exact h.distinct c j (Nat.le_refl _) (by omega) hjt hvc hvj
    · intro d hd
      obtain rfl : (c, (⟨w c, p⟩ : Delivery)) = d := by simpa using hd
      obtain ⟨j, hij, hjt, hnear, hj⟩ := h.near c (Nat.le_refl _) hct hvc
      exact ⟨j, hij, hjt, hnear, hj⟩
    · rw [List.mem_append, List.mem_singleton] at hd
      rcases hd with hd | rfl
      · obtain ⟨hb, hseq, hlt⟩ := h.cut d hd
        exact ⟨hb, hseq, by omega⟩
      · obtain ⟨hb, hseq⟩ := h.stored c p (Nat.le_refl _) (by omega) hv
        exact ⟨hb, hseq, Nat.lt_succ_self c⟩
    · rw [List.map_append, List.nodup_append]
      refine ⟨h.nodup, by simp, fun a ha b hb => ?_⟩
      obtain ⟨d, hd, rfl⟩ := List.mem_map.1 ha
      obtain rfl : b = w c := by simpa using hb
      exact h.fresh c (Nat.le_refl _) (by omega) hvc d hd
    · refine h.chain.append (.singleton _) fun d hd e he => ?_
      obtain rfl : (c, (⟨w c, p⟩ : Delivery)) = e := by simpa using he
      obtain ⟨j, hcj, -, hnear, -⟩ := h.link d hd
      have := (h.cut d (List.mem_of_getLast? hd)).2.2
      exact ⟨this, by simp only; omega⟩

/-- The cut moves on; the packets it passes are cut in order. -/
theorem advance (h : Trail packets v w c t cuts) (hcc' : c ≤ c') (hct : c' < t) :
    ∃ new, (new.map (·.2.packet.payload)) = payloads v c c' ∧
      Trail packets v w c' t (cuts ++ new) := by
  induction c', hcc' using Nat.le_induction with
  | base => exact ⟨[], by simp [payloads_self], by simpa using h⟩
  | succ c' hcc' ih =>
    obtain ⟨new, hnew, htrail⟩ := ih (by omega)
    obtain ⟨next, hnext, htrail'⟩ := htrail.succ hct
    refine ⟨new ++ next, ?_, by rwa [← List.append_assoc]⟩
    rw [List.map_append, hnew, hnext, ← payloads_succ, payloads_append hcc' (Nat.le_succ c')]

theorem ahead (h : Trail packets v w c t cuts) :
    (cuts.map (·.2)).IsChain fun d d' => Ahead d.packet.sequence d'.packet.sequence := by
  rw [List.isChain_map]
  refine List.IsChain.imp_of_mem_imp ?_ h.chain
  intro d d' hd hd' hstep
  rw [← (h.cut d hd).2.1, ← (h.cut d' hd').2.1]
  exact ahead_seqAt hstep.1 hstep.2

end Trail

/-! ## Runs -/

namespace Assembler

/-- An assembler between two writes: nothing has come yet, or a trail leads to where it stands. -/
inductive Trailing (packets : List Bytes) (cuts : List (Nat × Delivery)) : Assembler → Prop where
  | start (h : cuts = []) : Trailing packets cuts (.new .opus)
  | running {a : Assembler} {f c t : Nat} {v : Nat → Option Packet} {w : Nat → Nat}
      (hpoised : Poised a f c t v) (hready : a.ready = []) (hnarrow : t - f ≤ depth)
      (hhigh : 65536 + depth ≤ t) (htrail : Trail packets v w c t cuts) : Trailing packets cuts a

variable {packets : List Bytes} {cuts : List (Nat × Delivery)} {a : Assembler} {p : Packet}
  {raw : Bytes} {f c t : Nat} {v : Nat → Option Packet} {w : Nat → Nat}

theorem Trailing.concat (h : Trailing packets cuts a) (raw : Bytes) :
    Trailing (packets ++ [raw]) cuts a := by
  cases h with
  | start h => exact .start h
  | running hpoised hready hnarrow hhigh htrail =>
    exact .running hpoised hready hnarrow hhigh (htrail.concat raw)

theorem Trailing.brought (h : Trailing packets cuts a) :
    ∀ d ∈ cuts, Brought packets d.2.write d.2.packet := by
  cases h with
  | start h => simp [h]
  | running hpoised hready hnarrow hhigh htrail => exact fun d hd => (htrail.cut d hd).1

theorem Trailing.nodup (h : Trailing packets cuts a) : (cuts.map (·.2.write)).Nodup := by
  cases h with
  | start h => simp [h]
  | running hpoised hready hnarrow hhigh htrail => exact htrail.nodup

theorem Trailing.ahead (h : Trailing packets cuts a) :
    (cuts.map (·.2)).IsChain fun d d' => Ahead d.packet.sequence d'.packet.sequence := by
  cases h with
  | start h => simp [h]
  | running hpoised hready hnarrow hhigh htrail => exact htrail.ahead

/-- Draining follows the trail. -/
theorem Trailing.drain (h : Poised a f c t v) (hnarrow : t - f ≤ depth) (hhigh : 65536 + depth ≤ t)
    (htrail₀ : Trail packets v w c t cuts) :
    ∃ ss b new, Drains a ss b ∧ Trailing packets (cuts ++ new) b ∧
      ss.map (·.data) = a.ready.map (·.data) ++ new.map (·.2.packet.payload) ∧
      ss.length ≤ a.ready.length + (t - c) := by
  obtain ⟨ss, b, f', c', hdrains, hb, hready, hf', hc', -, hdata, -⟩ := h.drains
  obtain ⟨new, hnew, htrail⟩ := htrail₀.advance hc' hb.lt
  refine ⟨ss, b, new, hdrains, .running hb hready (by omega) hhigh htrail, by rw [hdata, hnew], ?_⟩
  have hlen := congrArg List.length hdata
  have hle := length_payloads_le v c c'
  have hlt := hb.lt
  simp only [List.length_map, List.length_append] at hlen
  omega

/-- One packet: what becomes of it and of those before it are samples of packets not cut yet. -/
theorem Trailing.push (h : Trailing packets cuts a) (hparse : Packet.parse raw = .ok p)
    (hp : p.payload ≠ []) :
    ∃ ss b new, Drains (a.push p) ss b ∧ ss.length ≤ 65536 ∧
      Trailing (packets ++ [raw]) (cuts ++ new) b ∧
      ss.map (·.data) = new.map (·.2.packet.payload) := by
  cases h with
  | start h =>
    subst h
    obtain ⟨q, hbase, -, hq⟩ := exists_seqAt p.sequence (65536 + depth)
    obtain ⟨hfirst, hready⟩ := Poised.first hq hp
    have hone : 1 ≤ depth := by decide
    obtain ⟨ss, b, new, hdrains, hb, hdata, hlen⟩ := Trailing.drain hfirst (by omega) (by omega)
      (Trail.first packets hparse hq)
    rw [hready] at hdata hlen
    exact ⟨ss, b, new, hdrains.of_activate, by simp at hlen; omega, hb, by simpa using hdata⟩
  | @running _ f c t v w hpoised hready₀ hnarrow₀ hhigh htrail₀ =>
    have hle := hpoised.le
    have hlt := hpoised.lt
    have hdepth : depth ≤ 32768 := by decide
    obtain ⟨q, f', c', hq, hqt, hpushed, hnarrow, hshort, hc', hready⟩ :=
      hpoised.push hnarrow₀ (by omega) hready₀ hp
    have htrail := htrail₀.store (q := q) hparse hq hqt hle hlt (by omega)
    obtain ⟨new, hnew, htrail'⟩ := htrail.advance hc' hpushed.lt
    obtain ⟨ss, b, new', hdrains, hb, hdata, hlen⟩ :=
      Trailing.drain hpushed hnarrow (by omega) htrail'
    refine ⟨ss, b, new ++ new', hdrains, ?_, by rwa [← List.append_assoc], ?_⟩
    · have hcount := congrArg List.length hready
      have hbound := length_payloads_le (storeAt f t v q p) c c'
      have hlt' := hpushed.lt
      rw [List.length_map] at hcount
      omega
    · rw [hdata, hready, List.map_append, hnew]

end Assembler

end Headend.Rtp
