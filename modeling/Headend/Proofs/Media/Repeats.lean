import Headend.Proofs.Media.Opening
import Headend.Proofs.Rtp.Spent

/-!
# Which packets the blocks are made of

Each block of a VP8 stream is made up of successive packets. A block shares no packet with a later
one, unless it has as many as fill the window and one more.
-/

namespace Headend.Media.Muxer

open Rtp WebM

/-- Whatever is written, the blocks can be traced to the writes whose packets make them up, and a
packet goes into two blocks only if the first of them has `depth + 1` packets. -/
theorem feed_vp8_once (packets : List Bytes) (capacity : Nat) :
    ∃ width height bs origins,
      (feed vp8 (Pipe.new capacity) packets).chunks =
        (BlockWriter.new [Track.vp8 width height]).writeAll bs ∧
      List.Forall₂ (Made packets) origins (bs.map Block.data) ∧ origins.Pairwise Once := by
  obtain ⟨cuts, hmade, honce⟩ := Assembler.yields_once .none packets
  rw [feed_new]
  cases (Opening.vp8 packets).1 with
  | waiting hunusable hblocks₀ hposition hsilent =>
    exact ⟨0, 0, [], [], by rw [hsilent]; rfl, .nil, .nil⟩
  | @begun lost rest first width height bs hsplit hunusable hsize hblocks₀ hdata hwritten =>
    refine ⟨width, height, openingBlock first :: bs, cuts.drop lost.length, ?_, ?_, ?_⟩
    · simp only [hwritten, passed_writeAll]
    · -- The blocks are the samples but for those lost.
      have hblocks : (openingBlock first :: bs).map Block.data =
          ((vp8.assembler.yields packets).flatten.map Sample.data).drop lost.length := by
        rw [hsplit, List.map_append, List.drop_left' (List.length_map _), List.map_cons,
          List.map_cons, hdata]
        rfl
      rw [hblocks]
      exact List.forall₂_drop _ hmade
    · exact honce.sublist (List.drop_sublist _ _)

/-! ## A window cut twice -/

/-- Packets that successive writes bring stand next to each other in the stream. -/
theorem slice_of_chain {ps : List Packet} {d : Delivery} {o : List Delivery}
    (hchain : (d :: o).IsChain fun d d' => d'.write = d.write + 1)
    (hget : ∀ x ∈ d :: o, ps[x.write]? = some x.packet) :
    (d :: o).map (·.packet) = (ps.drop d.write).take (o.length + 1) ∧
      (d :: o).map (·.write) = List.range' d.write (o.length + 1) := by
  obtain ⟨hlt, hd⟩ := List.getElem?_eq_some_iff.1 (hget d List.mem_cons_self)
  induction o generalizing d with
  | nil =>
    rw [List.drop_eq_getElem_cons hlt, hd]
    exact ⟨rfl, rfl⟩
  | cons d' o ih =>
    rw [List.isChain_cons_cons] at hchain
    have hget' : ∀ x ∈ d' :: o, ps[x.write]? = some x.packet :=
      fun x hx => hget x (List.mem_cons_of_mem _ hx)
    obtain ⟨hlt', hd'⟩ := List.getElem?_eq_some_iff.1 (hget' d' List.mem_cons_self)
    obtain ⟨hpackets, hwrites⟩ := ih hchain.2 hget' hlt' hd'
    rw [List.map_cons, hpackets, List.map_cons, hwrites, List.drop_eq_getElem_cons hlt, hd,
      hchain.1]
    exact ⟨rfl, rfl⟩

/-- The packets of a sample stand next to each other in a stream that is numbered from 1 on. -/
theorem slice_of_made {ps : List Packet} {o : List Delivery} {data : Bytes}
    (h : Made (ps.map Packet.encode) o data)
    (hparse : ∀ i p, ps[i]? = some p → Packet.parse p.encode = .ok p ∧ p.sequence.toNat = i + 1) :
    ∃ s n, s + n ≤ ps.length ∧ o.map (·.packet) = (ps.drop s).take n ∧
      o.map (·.write) = List.range' s n := by
  have hget : ∀ d ∈ o, ps[d.write]? = some d.packet := by
    intro d hd
    obtain ⟨raw, hraw, hpacket⟩ := h.brought d hd
    rw [List.getElem?_map] at hraw
    obtain ⟨p, hp, rfl⟩ := Option.map_eq_some_iff.1 hraw
    rw [(hparse d.write p hp).1] at hpacket
    rw [hp, Outcome.ok.inj hpacket]
  have hchain : o.IsChain fun d d' => d'.write = d.write + 1 := by
    refine h.sequence.imp_of_mem_imp fun d d' hd hd' hseq => ?_
    have hn := (hparse _ _ (hget d hd)).2
    have hn' := (hparse _ _ (hget d' hd')).2
    rw [hseq, UInt16.toNat_add, hn, UInt16.toNat_one] at hn'
    have := d.packet.sequence.toNat_lt
    omega
  obtain ⟨d, rest, rfl⟩ := List.exists_cons_of_ne_nil h.nonempty
  obtain ⟨hpackets, hwrites⟩ := slice_of_chain hchain hget
  refine ⟨d.write, rest.length + 1, ?_, hpackets, hwrites⟩
  have hlength := congrArg List.length hpackets
  have hlt := (List.getElem?_eq_some_iff.1 (hget d List.mem_cons_self)).1
  simp only [List.length_map, List.length_cons, List.length_take, List.length_drop] at hlength
  omega

/-- Eleven packets of one frame, two of which are marked as the start of a partition, and two frames
of one packet each. -/
def refilledWindow : List Packet :=
  (List.range 13).map fun i =>
    .plain 96 (UInt16.ofNat (i + 1)) (if i < 11 then 0 else UInt32.ofNat (3000 * (i - 10))) 1
      (decide (10 ≤ i))
      (if i = 0 ∨ 11 ≤ i then [0x10, 0x50, 0, 0, 0x9D, 0x01, 0x2A, 0x40, 0x01, 0xF0, 0x00]
        else [if i = 1 then 0x11 else 0x00, 0xEE, 0xEE, UInt8.ofNat i])

/-- What the parts of the second to the eleventh packet are joined to. -/
def secondPartition : Bytes := (List.range' 1 10).flatMap fun i => [0xEE, 0xEE, UInt8.ofNat i]

/-- The blocks that come of it: the second one repeats most of the first. -/
def refilledBlocks : List Block :=
  [⟨1, true, 0, [0x50, 0, 0, 0x9D, 0x01, 0x2A, 0x40, 0x01, 0xF0, 0x00] ++ secondPartition⟩,
    ⟨1, true, 33, secondPartition⟩,
    ⟨1, true, 67, [0x50, 0, 0, 0x9D, 0x01, 0x2A, 0x40, 0x01, 0xF0, 0x00]⟩]

/-- However a block that holds the second partition is made up, the sixth packet is part of it. -/
theorem sixth_mem_of_made {o : List Delivery} {data : Bytes}
    (hdata : data ∈ (refilledBlocks.take 2).map Block.data)
    (h : Made (refilledWindow.map Packet.encode) o data) : ∃ d ∈ o, d.write = 5 := by
  have hparse : ∀ i p, refilledWindow[i]? = some p →
      Packet.parse p.encode = .ok p ∧ p.sequence.toNat = i + 1 := by
    intro i p hp
    obtain ⟨hi, rfl⟩ := List.getElem?_eq_some_iff.1 hp
    exact (by decide +kernel : ∀ i : Fin 13, Packet.parse refilledWindow[i].encode =
      .ok refilledWindow[i] ∧ refilledWindow[i].sequence.toNat = i.val + 1) ⟨i, hi⟩
  obtain ⟨s, n, hsn, hpackets, hwrites⟩ := slice_of_made h hparse
  obtain ⟨⟨pictureId, levelIndex, temporal, key⟩, hjoined⟩ := h.joined
  rw [hpackets] at hjoined
  have hlength : refilledWindow.length = 13 := by simp [refilledWindow]
  have hwithin : s ≤ 5 ∧ 5 < s + n :=
    (by decide +kernel : ∀ pictureId levelIndex temporal key,
      ∀ data ∈ (refilledBlocks.take 2).map Block.data, ∀ s < 14, ∀ n < 14 - s,
      ((Depacketizer.vp8 ⟨pictureId, levelIndex, temporal, key⟩).join
        ((refilledWindow.drop s).take n) []).2 = some data → s ≤ 5 ∧ 5 < s + n)
      pictureId levelIndex temporal key data hdata s (by omega) n (by omega) hjoined
  have hmem : 5 ∈ o.map (·.write) := by
    rw [hwrites, List.mem_range'_1]
    exact hwithin
  exact List.mem_map.1 hmem

/-- Two of the blocks share a packet, however they are traced to the writes. -/
theorem feed_vp8_twice :
    (feed vp8 (Pipe.new 64) (refilledWindow.map Packet.encode)).chunks =
      (BlockWriter.new [Track.vp8 320 240]).writeAll refilledBlocks ∧
    ¬ ∃ origins, List.Forall₂ (Made (refilledWindow.map Packet.encode)) origins
        (refilledBlocks.map Block.data) ∧ origins.Pairwise Unshared := by
  refine ⟨by decide +kernel, ?_⟩
  rintro ⟨origins, hmade, hunshared⟩
  simp only [refilledBlocks, List.map_cons, List.map_nil] at hmade
  cases hmade with
  | @cons o _ _ _ hfirst hrest =>
    cases hrest with
    | @cons o' _ _ _ hsecond hrest =>
      obtain ⟨d, hd, hwrite⟩ := sixth_mem_of_made (by simp [refilledBlocks]) hfirst
      obtain ⟨d', hd', hwrite'⟩ := sixth_mem_of_made (by simp [refilledBlocks]) hsecond
      have hapart := (List.pairwise_cons.1 hunshared).1 o' List.mem_cons_self
      exact hapart d hd d' hd' (hwrite.trans hwrite'.symm)

end Headend.Media.Muxer
