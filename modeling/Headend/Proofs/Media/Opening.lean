import Headend.Proofs.Media.Samples
import Headend.Proofs.Rtp.Trail

/-!
# How a VP8 stream begins

The samples before the first one that gives a frame size leave nothing behind: no bytes, no running
time, no frame size. The stream begins with that sample, and keeps its frame size whatever the later
ones say.
-/

namespace Headend.Media.Muxer

open Rtp WebM Codec.Vp8

/-- The block a stream begins with. -/
def openingBlock (s : Sample) : Block := ⟨1, true, blockTimestamp s.nanos, s.data⟩

/-- Where a VP8 muxer stands after the samples `seen`, having put out `out`. -/
inductive Opening (m : Muxer) (seen : List Sample) (out : List Bytes) : Prop where
  /-- It waits for a frame size. -/
  | waiting (hunusable : ∀ s ∈ seen, keyframeSize s.data = none) (hblocks : m.blocks = none)
      (hposition : m.position = 0) (hsilent : out = [])
  | begun {lost rest : List Sample} {first : Sample} {width height : Nat} {bs : List Block}
      (hsplit : seen = lost ++ first :: rest) (hunusable : ∀ s ∈ lost, keyframeSize s.data = none)
      (hsize : keyframeSize first.data = some (width, height))
      (hblocks : m.blocks =
        some ((BlockWriter.new [Track.vp8 width height]).advance (openingBlock first :: bs)))
      (hdata : bs.map Block.data = rest.map Sample.data)
      (hwritten : out =
        (BlockWriter.new [Track.vp8 width height]).writeAll (openingBlock first :: bs))

variable {m : Muxer} {a : Assembler} {seen ss : List Sample} {out : List Bytes} {s : Sample}
  {raw : Bytes}

namespace Opening

theorem start : Opening vp8 [] [] := .waiting (List.forall_mem_nil _) rfl rfl rfl

/-- What is counted for the packet in hand does not matter. -/
theorem congr {n : Muxer} (h : Opening m seen out) (hblocks : n.blocks = m.blocks)
    (hposition : n.position = m.position) : Opening n seen out := by
  cases h with
  | waiting hunusable hblocks₀ hposition₀ hsilent =>
    exact .waiting hunusable (hblocks.trans hblocks₀) (hposition.trans hposition₀) hsilent
  | begun hsplit hunusable hsize hblocks₀ hdata hwritten =>
    exact .begun hsplit hunusable hsize (hblocks.trans hblocks₀) hdata hwritten

theorem result_of_waiting (h : m.blocks = none) : m.result = .error .notReady := by
  rw [result, h]
  rfl

theorem result_ne_notReady {w : BlockWriter} (h : m.blocks = some w) :
    m.result ≠ .error .notReady := by
  rw [result, h]
  split
  · rename_i hnone
    cases hnone
  · split <;> simp

/-! ## One sample -/

/-- A sample without a frame size is lost while the stream waits. -/
theorem lose (h : Opening m seen out) (hstream : m.streamFor s.data = none) :
    Opening m (seen ++ [s]) out := by
  cases h with
  | begun hsplit hunusable hsize₀ hblocks hdata hwritten =>
    rw [streamFor_of_blocks hblocks] at hstream
    cases hstream
  | waiting hunusable hblocks hposition hsilent =>
    have hsize : keyframeSize s.data = none := by simpa [streamFor, hblocks] using hstream
    refine .waiting (fun t ht => ?_) hblocks hposition hsilent
    rw [List.mem_append, List.mem_singleton] at ht
    rcases ht with ht | rfl
    · exact hunusable t ht
    · exact hsize

/-- A sample that is written is the first with a frame size, or comes after it. -/
theorem take {w : BlockWriter} (h : Opening m seen out) (hvp8 : a.codec.isVp8 = true)
    (hstream : m.streamFor s.data = some w) :
    Opening (m.wrote a w s) (seen ++ [s]) (out ++ [(w.write (m.blockOf a s)).2]) := by
  cases h with
  | waiting hunusable hblocks hposition hsilent =>
    obtain ⟨⟨width, height⟩, hsize, rfl⟩ : ∃ size, keyframeSize s.data = some size ∧
        BlockWriter.new [Track.vp8 size.1 size.2] = w := by
      simpa [streamFor, hblocks] using hstream
    have hblock : m.blockOf a s = openingBlock s := by
      obtain ⟨fields, hcodec⟩ := Depacketizer.exists_fields hvp8
      simp [blockOf, openingBlock, isKeyframe, hcodec, isKeyframe_of_keyframeSize hsize, hposition]
    have hsplit : seen ++ [s] = seen ++ s :: [] := rfl
    have hdata : ([] : List Block).map Block.data = ([] : List Sample).map Sample.data := rfl
    refine .begun hsplit hunusable hsize ?_ hdata ?_
    · rw [wrote, hblock]
      rfl
    · rw [hsilent, hblock]
      rfl
  | @begun lost rest first width height bs hsplit₀ hunusable hsize₀ hblocks hdata₀ hwritten =>
    obtain rfl : _ = w := Option.some.inj ((streamFor_of_blocks hblocks s.data).symm.trans hstream)
    have hsplit : seen ++ [s] = lost ++ first :: (rest ++ [s]) := by
      rw [hsplit₀, List.append_assoc, List.cons_append]
    have hdata : (bs ++ [m.blockOf a s]).map Block.data = (rest ++ [s]).map Sample.data := by
      rw [List.map_append, List.map_append, hdata₀]
      rfl
    refine .begun hsplit hunusable hsize₀ ?_ hdata ?_
    · rw [← List.cons_append, BlockWriter.advance_append]
      rfl
    · rw [← List.cons_append, BlockWriter.writeAll_append, hwritten]
      rfl

/-! ## Several writes -/

theorem respected :
    Respected fun m seen out => m.assembler.codec.isVp8 = true ∧ Opening m seen out where
  congr h hcodec hblocks hposition := ⟨hcodec.trans h.1, h.2.congr hblocks hposition⟩
  lose h hstream := ⟨h.1, h.2.lose hstream⟩
  take h hcodec hstream := ⟨hcodec.trans h.1, h.2.take (hcodec.trans h.1) hstream⟩

/-- Where a new muxer stands after some writes. -/
theorem vp8 (raws : List Bytes) :
    Opening (Media.collectAll Muxer.vp8 raws).1 (Muxer.vp8.assembler.yields raws).flatten
        (Media.collectAll Muxer.vp8 raws).2 ∧
      (Media.collectAll Muxer.vp8 raws).1.assembler.codec.isVp8 = true ∧
      (Media.collectAll Muxer.vp8 raws).1.assembler.Narrow := by
  obtain ⟨hvp8, hopening⟩ := respected.collectAll ⟨rfl, start⟩ (.new _) raws
  exact ⟨hopening, hvp8, (collectAll_ends (.new _) raws).1⟩

/-- There is only one first sample with a frame size. -/
theorem eq_of_first_usable {lost lost' rest rest' : List Sample} {first first' : Sample}
    (h : lost ++ first :: rest = lost' ++ first' :: rest')
    (hlost : ∀ s ∈ lost, keyframeSize s.data = none) (hfirst : keyframeSize first.data ≠ none)
    (hlost' : ∀ s ∈ lost', keyframeSize s.data = none) (hfirst' : keyframeSize first'.data ≠ none) :
    lost = lost' ∧ first = first' ∧ rest = rest' := by
  induction lost generalizing lost' with
  | nil =>
    cases lost' with
    | nil => exact ⟨rfl, List.cons.inj h⟩
    | cons s lost' =>
      obtain ⟨rfl, -⟩ := List.cons.inj h
      exact absurd (hlost' first List.mem_cons_self) hfirst
  | cons s lost ih =>
    cases lost' with
    | nil =>
      obtain ⟨rfl, -⟩ := List.cons.inj h
      exact absurd (hlost s List.mem_cons_self) hfirst'
    | cons s' lost' =>
      obtain ⟨rfl, htail⟩ := List.cons.inj h
      rw [List.forall_mem_cons] at hlost hlost'
      obtain ⟨rfl, hrest⟩ := ih htail hlost.2 hlost'.2
      exact ⟨rfl, hrest⟩

/-- A stream has not begun with samples that have no frame size. -/
theorem of_unusable (h : Opening m seen out) (hnone : ∀ s ∈ seen, keyframeSize s.data = none) :
    m.blocks = none ∧ m.position = 0 ∧ out = [] := by
  cases h with
  | waiting hunusable hblocks hposition hsilent => exact ⟨hblocks, hposition, hsilent⟩
  | begun hsplit hunusable hsize hblocks hdata hwritten =>
    have hfirst := hnone _ (hsplit ▸ List.mem_append_right _ List.mem_cons_self)
    rw [hsize] at hfirst
    cases hfirst

/-- It has begun with the first sample that has one. -/
theorem of_first {lost rest : List Sample} {first : Sample} {width height : Nat}
    (h : Opening m seen out) (hsplit : seen = lost ++ first :: rest)
    (hlost : ∀ s ∈ lost, keyframeSize s.data = none)
    (hsize : keyframeSize first.data = some (width, height)) :
    ∃ bs, bs.map Block.data = rest.map Sample.data ∧
      m.blocks =
        some ((BlockWriter.new [Track.vp8 width height]).advance (openingBlock first :: bs)) ∧
      out = (BlockWriter.new [Track.vp8 width height]).writeAll (openingBlock first :: bs) := by
  cases h with
  | waiting hunusable hblocks hposition hsilent =>
    have hfirst := hunusable _ (hsplit ▸ List.mem_append_right _ List.mem_cons_self)
    rw [hsize] at hfirst
    cases hfirst
  | @begun lost' rest' first' _ _ bs hsplit₀ hunusable hsize₀ hblocks hdata hwritten =>
    obtain ⟨-, rfl, rfl⟩ := eq_of_first_usable (hsplit₀.symm.trans hsplit) hunusable
      (by simp [hsize₀])
      hlost (by simp [hsize])
    obtain ⟨rfl, rfl⟩ := Prod.mk.inj (Option.some.inj (hsize₀.symm.trans hsize))
    exact ⟨bs, hdata, hblocks, hwritten⟩

end Opening

/-! ## The whole stream -/

/-- The write `i` yields `first`, and that is the first sample with a frame size. -/
structure Opens (packets : List Bytes) (i : Nat) (first : Sample) (size : Nat × Nat) : Prop where
  yields : ∃ lost rest, (vp8.assembler.yields packets)[i]? = some (lost ++ first :: rest) ∧
    ∀ s ∈ lost, keyframeSize s.data = none
  before : ∀ s ∈ (vp8.assembler.yields (packets.take i)).flatten, keyframeSize s.data = none
  size : keyframeSize first.data = some size

variable {packets : List Bytes} {i : Nat} {first : Sample} {width height : Nat}

/-- The samples of the writes up to `i`, and of more of them, if there are more. -/
theorem Opens.split {size : Nat × Nat} (h : Opens packets i first size) {k : Nat} (hk : i < k) :
    ∃ lost rest, (vp8.assembler.yields (packets.take k)).flatten = lost ++ first :: rest ∧
      ∀ s ∈ lost, keyframeSize s.data = none := by
  obtain ⟨lost, rest, hyields, hlost⟩ := h.yields
  have hget : (vp8.assembler.yields (packets.take k))[i]? = some (lost ++ first :: rest) := by
    rw [← Assembler.yields_take, List.getElem?_take_of_lt hk, hyields]
  obtain ⟨hlt, hget⟩ := List.getElem?_eq_some_iff.1 hget
  have hbefore : (vp8.assembler.yields (packets.take k)).take i =
      vp8.assembler.yields (packets.take i) := by
    rw [Assembler.yields_take, List.take_take, Nat.min_eq_left (Nat.le_of_lt hk)]
  refine ⟨(vp8.assembler.yields (packets.take i)).flatten ++ lost,
    rest ++ ((vp8.assembler.yields (packets.take k)).drop (i + 1)).flatten, ?_,
    fun s hs => (List.mem_append.1 hs).elim (h.before s) (hlost s)⟩
  rw [← hbefore]
  conv_lhs => rw [← List.take_append_drop i (vp8.assembler.yields (packets.take k)),
    List.drop_eq_getElem_cons hlt, hget]
  simp

theorem dimensions_of_none (h : m.blocks = none) : m.dimensions = none := by
  rw [dimensions, h]
  rfl

theorem tracks_advance (w : BlockWriter) (bs : List Block) : (w.advance bs).tracks = w.tracks := by
  induction bs generalizing w with
  | nil => rfl
  | cons b bs ih => exact ih _

theorem dimensions_of_begun {bs : List Block}
    (h : m.blocks = some ((BlockWriter.new [Track.vp8 width height]).advance bs)) :
    m.dimensions = some (width, height) := by
  simp [dimensions, h, tracks_advance, BlockWriter.new, Track.vp8]

/-- The ending of a write of a packet, by where the muxer stands afterwards. -/
theorem ending_vp8 {p : Packet} (h : Brought packets i p) (capacity : Nat) :
    (endings vp8 (Pipe.new capacity) packets)[i]? =
      some (.finished (collectAll vp8 (packets.take (i + 1))).1.result) := by
  obtain ⟨raw, hraw, hparse⟩ := h
  obtain ⟨hopening, hvp8, hnarrow⟩ := Opening.vp8 (packets.take i)
  have hending := (Opening.respected.collect ⟨hvp8, hopening⟩ hnarrow raw).2.2 p hparse
  rw [getElem?_endings, hraw, List.take_add_one, hraw, Option.toList_some, collectAll_concat,
    Option.map_some, hending]

/-- Writes of bytes that are no packet do not tell that the stream waits. -/
theorem ending_of_not_ok (h : ∀ p, Packet.parse raw ≠ .ok p) :
    (collect m raw).ending ≠ .finished (.error .notReady) := by
  cases hparse : Packet.parse raw with
  | ok p => exact absurd hparse (h p)
  | error e => rw [collect_of_error hparse]; nofun
  | crash => rw [collect_of_crash hparse]; nofun

/-- As long as no sample gives a frame size, nothing is written and every packet ends in
`notReady`; the stream begins with the first sample that gives one, under its frame size, and from
then on no write ends so. -/
theorem feed_vp8_opens (packets : List Bytes) (capacity : Nat) :
    (∀ k, (∀ s ∈ (vp8.assembler.yields (packets.take k)).flatten, keyframeSize s.data = none) →
      (feed vp8 (Pipe.new capacity) (packets.take k)).chunks = [] ∧
      (feed vp8 (Pipe.new capacity) (packets.take k)).writer.position = 0 ∧
      (feed vp8 (Pipe.new capacity) (packets.take k)).writer.dimensions = none ∧
      ∀ i < k, ∀ p, Brought packets i p →
        (endings vp8 (Pipe.new capacity) packets)[i]? = some (.finished (.error .notReady))) ∧
    ∀ i first width height, Opens packets i first (width, height) →
      (∀ k, i < k →
        (∃ chunks, (feed vp8 (Pipe.new capacity) (packets.take k)).chunks =
          (header [Track.vp8 width height] ++ clusterHead (blockTimestamp first.nanos) ++
            (openingBlock first).encode (blockTimestamp first.nanos)) :: chunks) ∧
        (feed vp8 (Pipe.new capacity) (packets.take k)).writer.dimensions = some (width, height)) ∧
      ∀ k, i ≤ k →
        (endings vp8 (Pipe.new capacity) packets)[k]? ≠ some (.finished (.error .notReady)) := by
  constructor
  case left =>
    intro k hnone
    obtain ⟨hblocks, hposition, hsilent⟩ := (Opening.vp8 (packets.take k)).1.of_unusable hnone
    rw [feed_new, hsilent]
    refine ⟨rfl, hposition, dimensions_of_none hblocks, fun i hi p hp => ?_⟩
    -- The samples up to the write `i` are among those up to `k`.
    have hearlier : ∀ s ∈ (vp8.assembler.yields (packets.take (i + 1))).flatten,
        keyframeSize s.data = none := by
      intro s hs
      refine hnone s (List.mem_flatten.2 ?_)
      obtain ⟨ss, hss, hmem⟩ := List.mem_flatten.1 hs
      have htake : packets.take (i + 1) = (packets.take k).take (i + 1) := by
        rw [List.take_take, Nat.min_eq_left hi]
      rw [htake, ← Assembler.yields_take] at hss
      exact ⟨ss, List.mem_of_mem_take hss, hmem⟩
    have hwaits := ((Opening.vp8 (packets.take (i + 1))).1.of_unusable hearlier).1
    rw [ending_vp8 hp, Opening.result_of_waiting hwaits]
  case right =>
    intro i first width height hopens
    have hbegun : ∀ k, i < k → ∃ bs,
        (collectAll vp8 (packets.take k)).1.blocks = some ((BlockWriter.new
          [Track.vp8 width height]).advance (openingBlock first :: bs)) ∧
        (collectAll vp8 (packets.take k)).2 =
          (BlockWriter.new [Track.vp8 width height]).writeAll (openingBlock first :: bs) := by
      intro k hk
      obtain ⟨lost, rest, hsplit, hlost⟩ := hopens.split hk
      obtain ⟨bs, -, hblocks, hout⟩ :=
        (Opening.vp8 (packets.take k)).1.of_first hsplit hlost hopens.size
      exact ⟨bs, hblocks, hout⟩
    refine ⟨fun k hk => ?_, fun k hk hending => ?_⟩
    · obtain ⟨bs, hblocks, hout⟩ := hbegun k hk
      rw [feed_new]
      refine ⟨?_, dimensions_of_begun hblocks⟩
      simp only [hout, passed_writeAll]
      exact ⟨_, rfl⟩
    · obtain ⟨bs, hblocks, -⟩ := hbegun (k + 1) (Nat.lt_succ_of_le hk)
      by_cases hok : ∃ p, Brought packets k p
      · obtain ⟨p, hp⟩ := hok
        rw [ending_vp8 hp] at hending
        exact Opening.result_ne_notReady hblocks (by simpa using hending)
      · rw [getElem?_endings] at hending
        obtain ⟨raw, hraw, hending⟩ := Option.map_eq_some_iff.1 hending
        exact ending_of_not_ok (fun p hp => hok ⟨p, raw, hraw, hp⟩) hending

/-- Frames of one packet, the second one late: an interframe, a keyframe cut short, one of 320 by
240, one of 640 by 480, and another interframe. -/
def lateKeyframe : List Packet :=
  [.plain 96 1 0 1 true [0x10, 0x51, 0, 0],
    .plain 96 3 6000 1 true [0x10, 0x50, 0, 0, 0x9D, 0x01, 0x2A, 0x40, 0x01, 0xF0, 0x00],
    .plain 96 4 9000 1 true [0x10, 0x50, 0, 0, 0x9D, 0x01, 0x2A, 0x80, 0x02, 0xE0, 0x01],
    .plain 96 2 3000 1 true [0x10, 0x50, 0, 0, 0x9D, 0x01],
    .plain 96 5 12000 1 true [0x10, 0x51, 0, 0]]

/-- The fourth write yields three frames, and the stream begins with the last of them. -/
theorem feed_vp8_opens_late :
    (∀ s ∈ (vp8.assembler.yields ((lateKeyframe.map Packet.encode).take 3)).flatten,
      keyframeSize s.data = none) ∧
    (endings vp8 (Pipe.new 4) (lateKeyframe.map Packet.encode))[2]? =
      some (.finished (.error .notReady)) ∧
    Opens (lateKeyframe.map Packet.encode) 3
      ⟨[0x50, 0, 0, 0x9D, 0x01, 0x2A, 0x40, 0x01, 0xF0, 0x00], 33333333⟩ (320, 240) ∧
    (feed vp8 (Pipe.new 4) ((lateKeyframe.map Packet.encode).take 5)).writer.dimensions =
      some (320, 240) := by
  have hnone : ∀ s ∈ (vp8.assembler.yields ((lateKeyframe.map Packet.encode).take 3)).flatten,
      keyframeSize s.data = none := by decide +kernel
  have hopens : Opens (lateKeyframe.map Packet.encode) 3
      ⟨[0x50, 0, 0, 0x9D, 0x01, 0x2A, 0x40, 0x01, 0xF0, 0x00], 33333333⟩ (320, 240) :=
    ⟨⟨[⟨[0x51, 0, 0], 33333333⟩, ⟨[0x50, 0, 0, 0x9D, 0x01], 33333333⟩], [], by decide +kernel,
      by decide⟩, hnone, by decide⟩
  have hthird : Brought (lateKeyframe.map Packet.encode) 2
      (.plain 96 4 9000 1 true [0x10, 0x50, 0, 0, 0x9D, 0x01, 0x2A, 0x80, 0x02, 0xE0, 0x01]) :=
    ⟨_, rfl, by decide +kernel⟩
  obtain ⟨hwaits, hbegins⟩ := feed_vp8_opens (lateKeyframe.map Packet.encode) 4
  obtain ⟨-, -, -, hending⟩ := hwaits 3 hnone
  exact ⟨hnone, hending 2 (by decide) _ hthird, hopens,
    ((hbegins 3 _ 320 240 hopens).1 5 (by decide)).2⟩

end Headend.Media.Muxer
