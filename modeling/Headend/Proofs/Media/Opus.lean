import Headend.Proofs.Media.Muxer
import Headend.Proofs.Rtp.Trail
import Headend.Proofs.Rtp.Window
import Mathlib.Data.List.Intervals

/-!
# Opus streams

What the Opus muxer writes into a drained pipe. If packets are only reordered, and within the
window, every packet but the last is written, in order, as soon as the one after it is there.
Whatever else a network does, no packet is written twice, and the stream never goes back.
-/

namespace Headend.Media.Muxer

open Rtp WebM

/-! ## Reordering -/

/-- The packets of a stream that begins at `s0`. -/
structure Numbered (s0 : UInt16) (n : Nat) (raw : Nat → Bytes) (pkt : Nat → Packet) : Prop where
  parse : ∀ i < n, Packet.parse (raw i) = .ok (pkt i)
  sequence : ∀ i < n, (pkt i).sequence = s0 + UInt16.ofNat i
  payload : ∀ i < n, (pkt i).payload ≠ []

/-- An order in which the packets of a stream come in. Just after each arrival, from any packet that
arrived and was not complete before, it is less than `depth` to any other. -/
structure Arrival (n : Nat) (order : List Nat) : Prop where
  perm : order.Perm (List.range n)
  first : ∀ i ∈ order.head?, i = 0
  window : ∀ k < n, ∀ i ∈ order.take (k + 1), ¬ Complete (order.take k) i →
    ∀ m ∈ order.take (k + 1), m < i + Assembler.depth

variable {s0 : UInt16} {n k : Nat} {raw : Nat → Bytes} {pkt : Nat → Packet} {order : List Nat}

theorem Arrival.length (h : Arrival n order) : order.length = n := by
  simpa using h.perm.length_eq

theorem Arrival.lt (h : Arrival n order) {i : Nat} (hi : i ∈ order) : i < n :=
  List.mem_range.1 (h.perm.mem_iff.1 hi)

/-- What has come out after each write: the packets before the first one whose successor is
missing. -/
theorem collectAll_windowed (hs : Numbered s0 n raw pkt) (ho : Arrival n order) (hk : k < n) :
    ∃ bs e m, Assembler.Windowed pkt s0.toNat (order.take (k + 1)) e m
        (collectAll opus ((order.take (k + 1)).map raw)).1.assembler ∧
      Ledger [Track.opus] (collectAll opus ((order.take (k + 1)).map raw)).1
        (collectAll opus ((order.take (k + 1)).map raw)).2 bs ∧
      bs.map Block.data = (List.range e).map fun i => (pkt i).payload := by
  have hlength := ho.length
  induction k with
  | zero =>
    obtain ⟨rest, rfl⟩ : ∃ rest, order = 0 :: rest := by
      cases order with
      | nil => simp at hlength; omega
      | cons i rest => exact ⟨rest, by rw [ho.first i rfl]⟩
    have hseq : seqAt s0.toNat = (pkt 0).sequence := by
      rw [hs.sequence 0 hk, ← seqAt_toNat_add]
      rfl
    obtain ⟨b, hdrains, hb⟩ := Assembler.Windowed.first hseq (hs.payload 0 hk)
    obtain ⟨bs, hdata, hassembler, hledger⟩ := Ledger.opus.write (hs.parse 0 hk) hdrains (by decide)
    obtain rfl : bs = [] := by simpa using hdata
    refine ⟨[], 0, 0, ?_, by simpa [collectAll] using hledger, rfl⟩
    simpa [collectAll, hassembler] using hb
  | succ k ih =>
    obtain ⟨bs, e, m, hw, hledger, hdata⟩ := ih (by omega)
    have hget : k + 1 < order.length := by omega
    have htake : order.take (k + 1 + 1) = order.take (k + 1) ++ [order[k + 1]] :=
      List.take_succ_eq_append_getElem hget
    have hnew : order[k + 1] ∉ order.take (k + 1) := by
      have hnodup : (order.take (k + 1) ++ [order[k + 1]]).Nodup :=
        htake ▸ (ho.perm.nodup_iff.2 List.nodup_range).sublist (List.take_sublist _ _)
      exact fun hmem => (List.nodup_append.1 hnodup).2.2 _ hmem _ (List.mem_singleton_self _) rfl
    have hi : order[k + 1] < n := ho.lt (List.getElem_mem hget)
    -- The first packet that waits bounds how far the others may be ahead.
    have hwindow : ∀ j ∈ order.take (k + 1 + 1), j < e + Assembler.depth := by
      refine ho.window (k + 1) hk e ?_ fun hc => Nat.lt_irrefl e (hw.complete_iff.1 hc)
      rw [htake]
      exact List.mem_append_left _ (hw.upto e (Nat.le_refl _))
    rw [htake] at hwindow ⊢
    obtain ⟨ss, b, e', hdrains, hb, hee', hlen, hss⟩ := hw.push hnew
      (hwindow _ (List.mem_append_right _ (List.mem_singleton_self _)))
      (hwindow m (List.mem_append_left _ hw.last))
      (by rw [hs.sequence _ hi, seqAt_toNat_add])
      (fun j hj => hs.payload j (ho.lt (List.mem_of_mem_take (i := k + 1 + 1) (htake ▸ hj))))
    obtain ⟨bs', hdata', hassembler, hledger'⟩ := hledger.write (hs.parse _ hi) hdrains
      (Nat.lt_trans hlen (by decide))
    rw [List.map_append, List.map_singleton, collectAll_concat]
    refine ⟨bs ++ bs', e', max m order[k + 1], hassembler ▸ hb, hledger', ?_⟩
    rw [List.map_append, hdata, hdata', hss, ← List.map_append]
    congr 1
    simp only [List.range_eq_range']
    have hsplit := List.range'_append_1 (s := 0) (m := e) (n := e' - e)
    rwa [Nat.zero_add, Nat.add_sub_cancel' hee'] at hsplit

theorem range_filter_lt {e : Nat} (he : e ≤ n) :
    (List.range n).filter (fun i => decide (i < e)) = List.range e := by
  rw [← List.Ico.zero_bot, List.Ico.filter_lt, Nat.min_eq_right he, List.Ico.zero_bot]

/-- After every write, the blocks so far are those of the packets of which all up to the next one
have arrived, in order; in the end only the last packet is not among them. -/
theorem feed_opus_reordered (hs : Numbered s0 n raw pkt) (ho : Arrival n order) (capacity : Nat) :
    (∀ k, ∃ bs, (feed opus (Pipe.new capacity) ((order.take k).map raw)).chunks =
        (BlockWriter.new [Track.opus]).writeAll bs ∧
      bs.map Block.data = ((List.range n).filter (Complete (order.take k) ·)).map
        fun i => (pkt i).payload) ∧
    ∃ bs, (feed opus (Pipe.new capacity) (order.map raw)).chunks =
        (BlockWriter.new [Track.opus]).writeAll bs ∧
      bs.map Block.data = (List.range (n - 1)).map fun i => (pkt i).payload := by
  have hlength := ho.length
  have hall : ∀ k, ∃ bs, (feed opus (Pipe.new capacity) ((order.take k).map raw)).chunks =
        (BlockWriter.new [Track.opus]).writeAll bs ∧
      bs.map Block.data = ((List.range n).filter (Complete (order.take k) ·)).map
        fun i => (pkt i).payload := by
    intro k
    rw [feed_new]
    by_cases hzero : min k n = 0
    · have hnil : order.take k = [] :=
        List.eq_nil_of_length_eq_zero (by rw [List.length_take, hlength, hzero])
      rw [hnil]
      refine ⟨[], rfl, ?_⟩
      have hnone : ∀ i, ¬ Complete [] i := fun i hi => by simpa using hi 0 (by omega)
      simp [hnone]
    · -- More writes than there are packets are all of them.
      have htake : order.take k = order.take (min k n - 1 + 1) := by
        rw [show min k n - 1 + 1 = min k n by omega, ← hlength, List.take_eq_take_min]
      rw [htake]
      obtain ⟨bs, e, m, hw, hledger, hdata⟩ :=
        collectAll_windowed (k := min k n - 1) hs ho (by omega)
      refine ⟨bs, by rw [hledger.out, passed_writeAll], ?_⟩
      have he : e ≤ n := Nat.le_of_lt (ho.lt (List.mem_of_mem_take (hw.upto e (Nat.le_refl _))))
      simp only [hw.complete_iff]
      rw [range_filter_lt he, hdata]
  refine ⟨hall, ?_⟩
  -- When all have arrived, only the last one has none after it.
  obtain ⟨bs, hout, hdata⟩ := hall n
  rw [List.take_of_length_le (Nat.le_of_eq hlength)] at hout hdata
  have hcomplete : ∀ i, Complete order i ↔ i + 1 < n := by
    intro i
    have hmem : ∀ j, j ∈ order ↔ j < n := fun j => by rw [ho.perm.mem_iff, List.mem_range]
    refine ⟨fun hi => (hmem _).1 (hi (i + 1) (by omega)), fun hi j hj => (hmem j).2 (by omega)⟩
  refine ⟨bs, hout, ?_⟩
  rw [hdata, ← range_filter_lt (n := n) (by omega : n - 1 ≤ n)]
  congr 2
  funext i
  simp only [hcomplete, decide_eq_decide]
  omega

/-- A packet of a short stream that begins at the largest sequence number. -/
def shortStream (i : Nat) : Packet :=
  .plain 111 (65535 + UInt16.ofNat i) (960 * UInt32.ofNat i) 1 false [0xF8, UInt8.ofNat i]

/-- Two packets change places right behind the wrap. -/
theorem feed_opus_reordered_at_wrap :
    Numbered 65535 4 (fun i => (shortStream i).encode) shortStream ∧ Arrival 4 [0, 2, 1, 3] ∧
    ∃ bs, (feed opus (Pipe.new 64) ([0, 2, 1, 3].map fun i => (shortStream i).encode)).chunks =
        (BlockWriter.new [Track.opus]).writeAll bs ∧
      bs.map Block.data = [[0xF8, 0], [0xF8, 1], [0xF8, 2]] := by
  have hs : Numbered 65535 4 (fun i => (shortStream i).encode) shortStream :=
    ⟨by decide, by decide, by decide⟩
  have ho : Arrival 4 [0, 2, 1, 3] := ⟨by decide, by decide, by decide⟩
  obtain ⟨bs, hout, hdata⟩ := (feed_opus_reordered hs ho 64).2
  exact ⟨hs, ho, bs, hout, hdata.trans (by decide)⟩

/-! ## Whatever arrives -/

/-- What came out of the first `k` writes carries packets that these have brought. -/
def Timely (packets : List Bytes) (bs : List Block) (cuts : List (Nat × Delivery)) : Prop :=
  ∀ k ≤ packets.length, ∃ n,
    (collectAll opus (packets.take k)).2 = (BlockWriter.new [Track.opus]).writeAll (bs.take n) ∧
    ∀ d ∈ cuts.take n, d.2.write < k

theorem Timely.concat {packets : List Bytes} {bs bs' : List Block}
    {cuts new : List (Nat × Delivery)}
    {raw : Bytes} (h : Timely packets bs cuts) (hlen : bs.length = cuts.length)
    (hout : (collectAll opus (packets ++ [raw])).2 =
      (BlockWriter.new [Track.opus]).writeAll (bs ++ bs'))
    (hbrought : ∀ d ∈ cuts ++ new, Brought (packets ++ [raw]) d.2.write d.2.packet) :
    Timely (packets ++ [raw]) (bs ++ bs') (cuts ++ new) := by
  intro k hk
  rcases Nat.lt_or_ge packets.length k with hlt | hge
  · -- All writes have been made, so all blocks are out.
    have hall : (packets ++ [raw]).length ≤ k := by
      rw [List.length_append, List.length_singleton]
      omega
    refine ⟨(bs ++ bs').length, ?_, fun d hd => ?_⟩
    · rw [List.take_of_length_le hall, List.take_length, hout]
    · exact Nat.lt_of_lt_of_le (hbrought d (List.mem_of_mem_take hd)).lt hall
  · -- What came out for the first packets came out before.
    obtain ⟨n, hfirst, hwrite⟩ := h k hge
    refine ⟨min n bs.length, ?_, fun d hd => hwrite d ?_⟩
    · rw [List.take_append_of_le_length hge, hfirst, List.take_append_of_le_length (by omega),
        ← List.take_eq_take_min]
    · rw [List.take_append_of_le_length (by omega), hlen, ← List.take_eq_take_min] at hd
      exact hd

theorem collectAll_trailing {packets : List Bytes}
    (hpayload : ∀ raw ∈ packets, ∀ p, Packet.parse raw = .ok p → p.payload ≠ []) :
    ∃ cuts bs, Assembler.Trailing packets cuts (collectAll opus packets).1.assembler ∧
      Ledger [Track.opus] (collectAll opus packets).1 (collectAll opus packets).2 bs ∧
      bs.map Block.data = cuts.map (·.2.packet.payload) ∧ Timely packets bs cuts := by
  induction packets using List.reverseRecOn with
  | nil =>
    refine ⟨[], [], .start rfl, Ledger.opus, rfl, fun k hk => ⟨0, ?_, by simp⟩⟩
    simp [collectAll, BlockWriter.writeAll]
  | append_singleton packets raw ih =>
    obtain ⟨cuts, bs, htrail, hledger, hdata, htimely⟩ := ih fun r hr => hpayload r (by simp [hr])
    have hlen : bs.length = cuts.length := by simpa using congrArg List.length hdata
    have hconcat := collectAll_concat opus packets raw
    by_cases hparse : ∃ p, Packet.parse raw = .ok p
    · obtain ⟨p, hparse⟩ := hparse
      obtain ⟨ss, b, new, hdrains, hshort, htrail', hss⟩ :=
        htrail.push hparse (hpayload raw (by simp) p hparse)
      obtain ⟨bs', hdata', hassembler, hledger'⟩ :=
        hledger.write hparse hdrains (Nat.lt_of_le_of_lt hshort (by decide))
      refine ⟨cuts ++ new, bs ++ bs', by rwa [hconcat, hassembler], by rwa [hconcat], ?_, ?_⟩
      · rw [List.map_append, List.map_append, hdata, hdata', hss]
      · exact htimely.concat hlen (by rw [hconcat, hledger'.out]) htrail'.brought
    · -- The write changes nothing but the number of writes.
      obtain ⟨hwriter, hchunks⟩ := collect_of_not_ok (m := (collectAll opus packets).1)
        fun p hp => hparse ⟨p, hp⟩
      rw [hwriter, hchunks, List.append_nil] at hconcat
      have htrail' := htrail.concat raw
      refine ⟨cuts, bs, by rwa [hconcat], by rwa [hconcat], hdata, ?_⟩
      have htimely' : Timely (packets ++ [raw]) (bs ++ []) (cuts ++ []) :=
        htimely.concat hlen (by rw [hconcat, List.append_nil, hledger.out])
          (by simpa using htrail'.brought)
      simpa using htimely'

/-- Every block carries the payload of a packet written before, no write gives more than one block,
and from one block to the next the sequence numbers go ahead. -/
theorem feed_opus_traced {packets : List Bytes}
    (hpayload : ∀ raw ∈ packets, ∀ p, Packet.parse raw = .ok p → p.payload ≠ [])
    (capacity : Nat) :
    ∃ (bs : List Block) (origin : List Delivery),
      bs.map Block.data = origin.map (·.packet.payload) ∧
      (∀ d ∈ origin, Brought packets d.write d.packet) ∧
      (origin.map (·.write)).Nodup ∧
      origin.IsChain (fun d d' => Ahead d.packet.sequence d'.packet.sequence) ∧
      ∀ k ≤ packets.length, ∃ n,
        (feed opus (Pipe.new capacity) (packets.take k)).chunks =
          (BlockWriter.new [Track.opus]).writeAll (bs.take n) ∧
        ∀ d ∈ origin.take n, d.write < k := by
  obtain ⟨cuts, bs, htrail, hledger, hdata, hprefix⟩ := collectAll_trailing hpayload
  refine ⟨bs, cuts.map (·.2), by simp [hdata], ?_, ?_, htrail.ahead, fun k hk => ?_⟩
  · intro d hd
    obtain ⟨e, he, rfl⟩ := List.mem_map.1 hd
    exact htrail.brought e he
  · rw [List.map_map]
    exact htrail.nodup
  · obtain ⟨n, hout, hwrite⟩ := hprefix k hk
    refine ⟨n, by rw [feed_new, hout, passed_writeAll], fun d hd => ?_⟩
    rw [← List.map_take] at hd
    obtain ⟨e, he, rfl⟩ := List.mem_map.1 hd
    exact hwrite e he

/-- A duplicate, bytes that are no packet, a jump ahead and one back. -/
def roughStream : List Bytes :=
  [(shortStream 0).encode, (shortStream 0).encode, [0x80], (shortStream 40000).encode,
    (shortStream 20).encode]

theorem feed_opus_traced_rough :
    (∀ raw ∈ roughStream, ∀ p, Packet.parse raw = .ok p → p.payload ≠ []) ∧
    ∃ (bs : List Block) (origin : List Delivery),
      bs.map Block.data = origin.map (·.packet.payload) ∧
      (∀ d ∈ origin, Brought roughStream d.write d.packet) ∧ (origin.map (·.write)).Nodup ∧
      ∃ n, (feed opus (Pipe.new 64) (roughStream.take 4)).chunks =
        (BlockWriter.new [Track.opus]).writeAll (bs.take n) := by
  have hpayload : ∀ raw ∈ roughStream, ∀ p, Packet.parse raw = .ok p → p.payload ≠ [] := by
    have hparse : ∀ i ∈ [0, 40000, 20], Packet.parse (shortStream i).encode = .ok (shortStream i) :=
      by decide
    have hjunk : Packet.parse [0x80] = .error .shortHeader := by decide
    have hshort : ∀ i ∈ [0, 40000, 20], ∀ p, Packet.parse (shortStream i).encode = .ok p →
        p.payload ≠ [] := by
      intro i hi p hp
      rw [hparse i hi] at hp
      cases hp
      simp [shortStream, Packet.plain]
    intro raw hraw p hp
    simp only [roughStream, List.mem_cons, List.not_mem_nil, or_false] at hraw
    rcases hraw with rfl | rfl | rfl | rfl | rfl
    · exact hshort 0 (by simp) p hp
    · exact hshort 0 (by simp) p hp
    · rw [hjunk] at hp
      cases hp
    · exact hshort 40000 (by simp) p hp
    · exact hshort 20 (by simp) p hp
  obtain ⟨bs, origin, hdata, hbrought, hnodup, -, hprefix⟩ := feed_opus_traced hpayload 64
  obtain ⟨n, hout, -⟩ := hprefix 4 (by decide)
  exact ⟨hpayload, bs, origin, hdata, hbrought, hnodup, n, hout⟩

end Headend.Media.Muxer
