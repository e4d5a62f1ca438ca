import Headend.Proofs.Media.Muxer
import Headend.Proofs.Rtp.Reordered

/-!
# VP8 streams

What the VP8 muxer writes into a drained pipe for frames of which no packet is lost. If the packets
come in order, every frame but the last is written, unless one of those has more than `depth + 1`
packets; the last one has to wait, unless it has just so many. If they are reordered, but within the
window, every frame but the last is written as soon as the packet after it is there.
-/

namespace Headend.Media.Muxer

open Rtp WebM

/-! ## Runs of packets -/

variable {m : Muxer} {w : BlockWriter} {a b : Assembler} {ps : List Packet} {ss : List Sample}
  {raws : List Bytes}

/-- One block for each sample, if the first of them can begin the stream. -/
theorem collectAll_runs (hruns : Assembler.Runs a ps ss b) (ha : m.assembler = a)
    (hparse : raws.map Packet.parse = ps.map .ok)
    (hw : ∀ s ∈ ss.head?, m.streamFor s.data = some w) :
    ∃ bs, bs.map Block.data = ss.map Sample.data ∧ (collectAll m raws).2 = w.writeAll bs := by
  induction hruns generalizing m w raws with
  | nil a =>
    obtain rfl : raws = [] := by simpa using hparse
    exact ⟨[], rfl, rfl⟩
  | @cons a b c p ps ss ss' hdrains hshort hrest ih =>
    subst ha
    obtain ⟨raw, raws, rfl, hp, hparse⟩ := List.map_eq_cons_iff.1 hparse
    have hw₁ : ∀ s ∈ ss.head?, m.streamFor s.data = some w := by
      intro s hs
      refine hw s ?_
      rw [List.head?_append, hs]
      rfl
    obtain ⟨bs, hputs⟩ := puts_collect hp hdrains (Nat.lt_of_le_of_lt hshort (by decide)) hw₁
    have hw₂ : ∀ s ∈ ss'.head?, (collect m raw).writer.streamFor s.data = some (w.advance bs) := by
      intro s hs
      refine hputs.streamFor fun hss => hw s ?_
      rw [hss]
      exact hs
    obtain ⟨bs', hdata', hchunks'⟩ := ih hputs.assembler hparse hw₂
    refine ⟨bs ++ bs', by rw [List.map_append, List.map_append, hputs.data, hdata'], ?_⟩
    rw [BlockWriter.writeAll_append, ← hputs.chunks, ← hchunks']
    rfl

theorem length_collectAll_le (hruns : Assembler.Runs a ps ss b) (ha : m.assembler = a)
    (hparse : raws.map Packet.parse = ps.map .ok) : (collectAll m raws).2.length ≤ ss.length := by
  induction hruns generalizing m raws with
  | nil a =>
    obtain rfl : raws = [] := by simpa using hparse
    exact Nat.le_refl _
  | @cons a b c p ps ss ss' hdrains hshort hrest ih =>
    subst ha
    obtain ⟨raw, raws, rfl, hp, hparse⟩ := List.map_eq_cons_iff.1 hparse
    obtain ⟨hassembler, hlen⟩ := resume_le
      (m := { m with assembler := m.assembler.push p, written := 0, samples := 0 }) hdrains
      (Nat.lt_of_le_of_lt hshort (by decide : 65536 < moveLimit))
    rw [← collect_eq hp] at hassembler hlen
    have hrest' := ih hassembler hparse
    change ((collect m raw).chunks ++ (collectAll (collect m raw).writer raws).2).length ≤ _
    rw [List.length_append, List.length_append]
    omega

/-! ## Frames in order -/

/-- The packets of a frame: all of one timestamp, the first one marked as its start and the last one
as its end. -/
structure VideoFrame (ps : List Packet) : Prop where
  nonempty : ps ≠ []
  head : ∀ i p, ps[i]? = some p → Codec.Vp8.isHead p.payload = decide (i = 0)
  marker : ∀ i p, ps[i]? = some p → p.marker = decide (i + 1 = ps.length)
  timestamp : ∀ p ∈ ps, ∀ q ∈ ps, p.timestamp = q.timestamp
  payload : ∀ p ∈ ps, PlainPayload p.payload

/-- Frames sent in order from `s0` on, with nothing lost. -/
structure Delivered (s0 : UInt16) (frames : List (List Packet)) (raws : List Bytes) : Prop where
  parse : raws.map Packet.parse = frames.flatten.map .ok
  sequence : ∀ i p, frames.flatten[i]? = some p → p.sequence = s0 + UInt16.ofNat i
  frame : ∀ ps ∈ frames, VideoFrame ps

/-- The sequence numbers, told one position after another. -/
theorem Delivered.of_numbers {s0 : UInt16} {frames : List (List Packet)}
    (hparse : raws.map Packet.parse = frames.flatten.map .ok)
    (hnumbers : ∀ i < frames.flatten.length,
      frames.flatten[i]?.map (·.sequence) = some (s0 + UInt16.ofNat i))
    (hframe : ∀ ps ∈ frames, VideoFrame ps) : Delivered s0 frames raws := by
  refine ⟨hparse, fun i p hi => ?_, hframe⟩
  have hn := hnumbers i (List.getElem?_eq_some_iff.1 hi).1
  rw [hi] at hn
  exact Option.some.inj hn

theorem VideoFrame.placed {P : Nat → Packet} {ps : List Packet} {s : Nat} (h : VideoFrame ps)
    (hP : ∀ i p, ps[i]? = some p → P (s + i) = p) :
    ps = (List.range' s ps.length).map P ∧ Frame P s (s + ps.length) := by
  have hlen : 0 < ps.length := List.length_pos_iff.2 h.nonempty
  -- The packets of the frame are those at its positions in the stream.
  have hget : ∀ j, s ≤ j → j < s + ps.length → ps[j - s]? = some (P j) := by
    intro j hj hje
    have hi : j - s < ps.length := by omega
    have := hP (j - s) ps[j - s] (List.getElem?_eq_getElem hi)
    rw [List.getElem?_eq_getElem hi, ← this, Nat.add_sub_cancel' hj]
  have hmem : ∀ j, s ≤ j → j < s + ps.length → P j ∈ ps :=
    fun j hj hje => List.mem_of_getElem? (hget j hj hje)
  refine ⟨?_, by omega, ?_, ?_, ?_, ?_⟩
  · refine List.ext_getElem (by simp) fun i hi _ => ?_
    have := hP i ps[i] (List.getElem?_eq_getElem hi)
    simp [this]
  · intro j hj hje
    rw [h.head _ _ (hget j hj hje)]
    exact decide_eq_decide.2 (by omega)
  · intro j hj hje
    rw [h.marker _ _ (hget j hj hje)]
    exact decide_eq_decide.2 (by omega)
  · exact fun j hj hje => h.timestamp _ (hmem j hj hje) _ (hmem s (Nat.le_refl _) (by omega))
  · exact fun j hj hje => h.payload _ (hmem j hj hje)

theorem framed {P : Nat → Packet} {frames : List (List Packet)} {s : Nat}
    (h : ∀ ps ∈ frames, VideoFrame ps) (hP : ∀ i p, frames.flatten[i]? = some p → P (s + i) = p) :
    Assembler.Framed P s frames := by
  induction frames generalizing s with
  | nil => trivial
  | cons ps rest ih =>
    rw [List.flatten_cons] at hP
    obtain ⟨hps, hframe⟩ := (h ps List.mem_cons_self).placed fun i p hi => by
      have hlt := (List.getElem?_eq_some_iff.1 hi).1
      exact hP i p (by rw [List.getElem?_append_left hlt, hi])
    refine ⟨hps, hframe, ih (fun qs hqs => h qs (List.mem_cons_of_mem _ hqs)) fun i p hi => ?_⟩
    rw [Nat.add_assoc]
    exact hP (ps.length + i) p (by rw [List.getElem?_append_right (by omega)]; simpa using hi)

/-- A packet of a stream, by its place in it. -/
def packetAt (frames : List (List Packet)) (i : Nat) : Packet :=
  frames.flatten[i]?.getD (.plain 0 0 0 0 false [])

theorem packetAt_eq {frames : List (List Packet)} {i : Nat} {p : Packet}
    (h : frames.flatten[i]? = some p) : packetAt frames i = p := by
  simp [packetAt, h]

/-- Positions are counted so that the first packet has its own number. -/
theorem Delivered.framed {s0 : UInt16} {frames : List (List Packet)}
    (h : Delivered s0 frames raws) :
    Assembler.Framed (Assembler.placed (packetAt frames) s0.toNat) s0.toNat frames := by
  refine Muxer.framed h.frame fun i p hi => ?_
  rw [Assembler.placed, Nat.add_sub_cancel_left, packetAt_eq hi]

theorem Delivered.seqAt {s0 : UInt16} {frames : List (List Packet)} {i : Nat}
    (h : Delivered s0 frames raws) (hi : i < frames.flatten.length) :
    Rtp.seqAt (s0.toNat + i) = (packetAt frames i).sequence := by
  have hget := List.getElem?_eq_getElem hi
  rw [packetAt_eq hget, h.sequence i _ hget, seqAt_toNat_add]

/-- What is sent so becomes the samples of the frames kept. -/
theorem Delivered.runs {s0 : UInt16} {frames : List (List Packet)} (h : Delivered s0 frames raws) :
    ∃ ss b, Assembler.Runs (.new (.vp8 .none)) frames.flatten ss b ∧
      ss.map (·.data) = (Assembler.kept false frames).map frameData := by
  refine Assembler.runs_new h.framed fun j hj hje => ?_
  obtain ⟨i, rfl⟩ : ∃ i, j = s0.toNat + i := ⟨j - s0.toNat, by omega⟩
  rw [h.seqAt (by omega), Assembler.placed, Nat.add_sub_cancel_left]

/-- A frame that is too long is missing, and another one with it. -/
theorem Delivered.length_collectAll_of_long {s0 : UInt16} {frames : List (List Packet)}
    {ps : List Packet}
    (h : Delivered s0 frames raws) (hps : ps ∈ frames.dropLast)
    (hlong : Assembler.depth + 1 < ps.length) :
    (collectAll vp8 raws).2.length + 2 ≤ frames.length := by
  obtain ⟨ss, b, hruns, hdata⟩ := h.runs
  have hkept := Assembler.length_kept_of_long false hps hlong
  have hsamples := congrArg List.length hdata
  have hblocks := length_collectAll_le (m := vp8) hruns rfl h.parse
  rw [List.length_map, List.length_map] at hsamples
  omega

/-- A stream begins with its first frame, if that is a keyframe. -/
theorem streamFor_first {frames done : List (List Packet)} {width height : Nat}
    (hkey : ∀ ps ∈ frames.head?, Codec.Vp8.keyframeSize (frameData ps) = some (width, height))
    (hdone : ∀ ps ∈ done.head?, ps ∈ frames.head?)
    (hdata : ss.map (·.data) = done.map frameData) :
    ∀ s ∈ ss.head?, vp8.streamFor s.data = some (BlockWriter.new [Track.vp8 width height]) := by
  intro s hs
  have hmem : s.data ∈ (done.map frameData).head? := by
    rw [← hdata, List.head?_map, hs]
    rfl
  rw [List.head?_map, Option.mem_def, Option.map_eq_some_iff] at hmem
  obtain ⟨ps, hps, hsample⟩ := hmem
  rw [← hsample]
  simp [streamFor, vp8, hkey ps (hdone ps hps)]

/-- Without a frame that is too long, every frame kept gives a block. -/
theorem collectAll_of_short {s0 : UInt16} {frames : List (List Packet)} {width height : Nat}
    (h : Delivered s0 frames raws)
    (hkey : ∀ ps ∈ frames.head?, Codec.Vp8.keyframeSize (frameData ps) = some (width, height))
    (hshort : ∀ ps ∈ frames.dropLast, ps.length ≤ Assembler.depth + 1) :
    ∃ bs, bs.map Block.data = (Assembler.kept false frames).map frameData ∧
      (collectAll vp8 raws).2 = (BlockWriter.new [Track.vp8 width height]).writeAll bs := by
  obtain ⟨ss, b, hruns, hdata⟩ := h.runs
  -- The first frame kept is the first frame.
  have hhead : ∀ ps ∈ (Assembler.kept false frames).head?, ps ∈ frames.head? := by
    intro ps hps
    rw [Assembler.kept_of_short hshort] at hps
    split at hps
    · exact hps
    · match frames with
      | [] => simp at hps
      | [_] => simp at hps
      | qs :: _ :: _ => simpa using hps
  obtain ⟨bs, hbs, hout⟩ :=
    collectAll_runs hruns rfl h.parse (streamFor_first hkey hhead hdata)
  exact ⟨bs, by rw [hbs, hdata], hout⟩

/-- The blocks are those of all frames but the last exactly if none of these has more than
`depth + 1` packets and the last one has not just so many. -/
theorem feed_vp8_frames {s0 : UInt16} {frames : List (List Packet)} {width height : Nat}
    (h : Delivered s0 frames raws)
    (hkey : ∀ ps ∈ frames.head?, Codec.Vp8.keyframeSize (frameData ps) = some (width, height))
    (capacity : Nat) :
    (∃ bs, (feed vp8 (Pipe.new capacity) raws).chunks =
        (BlockWriter.new [Track.vp8 width height]).writeAll bs ∧
      bs.map Block.data = frames.dropLast.map frameData) ↔
    (∀ ps ∈ frames.dropLast, ps.length ≤ Assembler.depth + 1) ∧
      ∀ ps ∈ frames.getLast?, ps.length ≠ Assembler.depth + 1 := by
  rw [feed_new]
  constructor
  · rintro ⟨bs, hchunks, hbs⟩
    change passed (collectAll vp8 raws).2 = _ at hchunks
    have hcount : (passed (collectAll vp8 raws).2).length = frames.length - 1 := by
      have hlen := congrArg List.length hbs
      rw [List.length_map, List.length_map, List.length_dropLast] at hlen
      rw [hchunks, BlockWriter.length_writeAll, hlen]
    have hshort : ∀ ps ∈ frames.dropLast, ps.length ≤ Assembler.depth + 1 := by
      intro ps hps
      refine Nat.le_of_not_lt fun hlong => ?_
      -- Only the last frame may be missing.
      have hblocks := h.length_collectAll_of_long hps hlong
      have hpassed : (passed (collectAll vp8 raws).2).length ≤ (collectAll vp8 raws).2.length :=
        List.length_filter_le _ _
      omega
    refine ⟨hshort, fun ps hps hfull => ?_⟩
    -- A last frame that fills the window is a block too many.
    obtain ⟨bs', hbs', hout⟩ := collectAll_of_short h hkey hshort
    have hne : frames ≠ [] := by
      rintro rfl
      simp at hps
    have hpos := List.length_pos_iff.2 hne
    have hlen := congrArg List.length hbs'
    rw [Assembler.kept_of_short hshort, if_pos ⟨ps, hps, hfull⟩, List.length_map,
      List.length_map] at hlen
    rw [hout, passed_writeAll, BlockWriter.length_writeAll, hlen] at hcount
    omega
  · rintro ⟨hshort, hlast⟩
    obtain ⟨bs, hbs, hout⟩ := collectAll_of_short h hkey hshort
    have hnone : ¬ ∃ ps ∈ frames.getLast?, ps.length = Assembler.depth + 1 :=
      fun ⟨ps, hps, hfull⟩ => hlast ps hps hfull
    rw [Assembler.kept_of_short hshort, if_neg hnone] at hbs
    exact ⟨bs, by rw [hout, passed_writeAll], hbs⟩

/-! ## Keyframes of a given number of packets -/

/-- A keyframe of 320 by 240 in so many packets, the first one numbered `first`. -/
def keyframeIn (count first : Nat) (timestamp : UInt32) : List Packet :=
  (List.range count).map fun i =>
    .plain 96 (UInt16.ofNat (first + i)) timestamp 1 (i + 1 == count)
      (if i = 0 then [0x10, 0x50, 0, 0, 0x9D, 0x01, 0x2A, 0x40, 0x01, 0xF0, 0x00]
        else [0x00, 0xEE, 0xEE, UInt8.ofNat i])

theorem videoFrame_keyframeIn {count : Nat} (h : 0 < count) (first : Nat) (timestamp : UInt32) :
    VideoFrame (keyframeIn count first timestamp) := by
  have hget : ∀ i p, (keyframeIn count first timestamp)[i]? = some p → i < count ∧
      p = .plain 96 (UInt16.ofNat (first + i)) timestamp 1 (i + 1 == count)
        (if i = 0 then [0x10, 0x50, 0, 0, 0x9D, 0x01, 0x2A, 0x40, 0x01, 0xF0, 0x00]
          else [0x00, 0xEE, 0xEE, UInt8.ofNat i]) := by
    intro i p hi
    have hlt : i < count := by simpa [keyframeIn] using (List.getElem?_eq_some_iff.1 hi).1
    refine ⟨hlt, ?_⟩
    simpa [keyframeIn, List.getElem?_range hlt, eq_comm] using hi
  have hmem : ∀ p ∈ keyframeIn count first timestamp, p.timestamp = timestamp := by
    intro p hp
    obtain ⟨i, -, rfl⟩ := List.mem_map.1 hp
    rfl
  refine ⟨?_, ?_, ?_, fun p hp q hq => by rw [hmem p hp, hmem q hq], ?_⟩
  · simp [keyframeIn]
    omega
  · intro i p hi
    obtain ⟨-, rfl⟩ := hget i p hi
    by_cases hzero : i = 0 <;> simp [Packet.plain, Codec.Vp8.isHead, hzero]
  · intro i p hi
    obtain ⟨-, rfl⟩ := hget i p hi
    simp [Packet.plain, keyframeIn, Bool.beq_eq_decide_eq]
  · intro p hp
    obtain ⟨i, -, rfl⟩ := List.mem_map.1 hp
    have hclear : (0x10 : UInt8) &&& 0x80 = 0 := by decide
    by_cases hzero : i = 0 <;> simp [Packet.plain, PlainPayload, hzero, hclear]

/-- A frame that fills the window is written if another one follows it. -/
def fittingFrames : List (List Packet) :=
  [keyframeIn 3 65530 0, keyframeIn 11 65533 3000, keyframeIn 2 65544 6000]

theorem feed_vp8_frames_fitting :
    ∃ bs, (feed vp8 (Pipe.new 64) (fittingFrames.flatten.map Packet.encode)).chunks =
        (BlockWriter.new [Track.vp8 320 240]).writeAll bs ∧
      bs.map Block.data = fittingFrames.dropLast.map frameData := by
  have hframe : ∀ ps ∈ fittingFrames, VideoFrame ps := by
    intro ps hps
    simp only [fittingFrames, List.mem_cons, List.not_mem_nil, or_false] at hps
    rcases hps with rfl | rfl | rfl <;> exact videoFrame_keyframeIn (by decide) _ _
  have h : Delivered 65530 fittingFrames (fittingFrames.flatten.map Packet.encode) :=
    .of_numbers (by decide) (by decide) hframe
  exact (feed_vp8_frames h (by decide) 64).2 (by decide)

/-- A frame with one packet more, and one that follows it. -/
def overlongFrames : List (List Packet) := [keyframeIn 12 1 0, keyframeIn 1 13 3000]

/-- Nothing is written of the frame, though none of its packets is lost. -/
theorem feed_vp8_overlong :
    Delivered 1 overlongFrames (overlongFrames.flatten.map Packet.encode) ∧
      (∀ ps ∈ overlongFrames.head?, Codec.Vp8.keyframeSize (frameData ps) = some (320, 240)) ∧
      ¬ ∃ bs, (feed vp8 (Pipe.new 64) (overlongFrames.flatten.map Packet.encode)).chunks =
          (BlockWriter.new [Track.vp8 320 240]).writeAll bs ∧
        bs.map Block.data = overlongFrames.dropLast.map frameData := by
  have hframe : ∀ ps ∈ overlongFrames, VideoFrame ps := by
    intro ps hps
    simp only [overlongFrames, List.mem_cons, List.not_mem_nil, or_false] at hps
    rcases hps with rfl | rfl <;> exact videoFrame_keyframeIn (by decide) _ _
  have hnone : (feed vp8 (Pipe.new 64) (overlongFrames.flatten.map Packet.encode)).chunks = [] := by
    decide +kernel
  refine ⟨.of_numbers (by decide) (by decide) hframe, by decide, ?_⟩
  rintro ⟨bs, hchunks, hdata⟩
  have hlen := congrArg List.length hdata
  rw [List.length_map, ← BlockWriter.length_writeAll (.new [Track.vp8 320 240]), ← hchunks,
    hnone] at hlen
  simp [overlongFrames] at hlen

/-! ## Frames reordered -/

/-- Packets as they come in: by their places in the stream. -/
def arriving (raws : List Bytes) (order : List Nat) : List Bytes := order.filterMap (raws[·]?)

theorem Delivered.parse_arriving {s0 : UInt16} {frames : List (List Packet)} {order : List Nat}
    (h : Delivered s0 frames raws) (horder : ∀ i ∈ order, i < frames.flatten.length) :
    (arriving raws order).map Packet.parse = (order.map (packetAt frames)).map .ok := by
  induction order with
  | nil => rfl
  | cons i order ih =>
    have hi := horder i List.mem_cons_self
    have hparse : (raws[i]?).map Packet.parse = some (.ok (packetAt frames i)) := by
      rw [← List.getElem?_map, h.parse, List.getElem?_map, List.getElem?_eq_getElem hi,
        packetAt_eq (List.getElem?_eq_getElem hi)]
      rfl
    obtain ⟨raw, hraw, hp⟩ := Option.map_eq_some_iff.1 hparse
    rw [arriving, List.filterMap_cons, hraw, List.map_cons, List.map_cons, List.map_cons, hp]
    rw [← ih fun j hj => horder j (List.mem_cons_of_mem _ hj)]
    rfl

/-- What has come out after some packets: the frames that are complete. -/
theorem collectAll_arriving {s0 : UInt16} {frames : List (List Packet)} {order : List Nat}
    {width height : Nat} (h : Delivered s0 frames raws) (ho : Assembler.FrameArrival frames order)
    (hkey : ∀ ps ∈ frames.head?, Codec.Vp8.keyframeSize (frameData ps) = some (width, height))
    (k : Nat) :
    ∃ e bs, (collectAll vp8 (arriving raws (order.take k))).2 =
        (BlockWriter.new [Track.vp8 width height]).writeAll bs ∧
      bs.map Block.data = (frames.take e).map frameData ∧
      ∀ j < frames.length, j < e ↔ Assembler.FrameComplete frames (order.take k) j := by
  by_cases hzero : min k order.length = 0
  · have hnil : order.take k = [] :=
      List.eq_nil_of_length_eq_zero (by rw [List.length_take, hzero])
    rw [hnil]
    refine ⟨0, [], rfl, rfl, fun j _ => ⟨fun hj => absurd hj (Nat.not_lt_zero j), fun hj => ?_⟩⟩
    exact absurd (hj 0 (Nat.zero_le _)) List.not_mem_nil
  · -- More writes than there are packets are all of them.
    have htake : order.take k = order.take (min k order.length - 1 + 1) := by
      rw [show min k order.length - 1 + 1 = min k order.length by omega, List.take_eq_take_min]
    obtain ⟨ss, b, done, left, hruns, hsplit, hdata, hb⟩ :=
      ho.runs (k := min k order.length - 1) h.framed (fun i hi => h.seqAt hi) (by omega)
    have hparse : (arriving raws (order.take k)).map Packet.parse =
        ((order.take k).map (packetAt frames)).map .ok :=
      h.parse_arriving fun i hi => ho.lt (List.mem_of_mem_take hi)
    rw [← htake] at hruns hb
    have hfirst : ∀ ps ∈ done.head?, ps ∈ frames.head? := by
      intro ps hps
      rw [hsplit, List.head?_append, hps]
      rfl
    obtain ⟨bs, hbs, hout⟩ :=
      collectAll_runs hruns rfl hparse (streamFor_first hkey hfirst hdata)
    refine ⟨done.length, bs, hout, ?_, fun j _ => ?_⟩
    · rw [hbs, hdata, hsplit, List.take_left]
    · rw [hsplit]
      exact hb.lt_iff

/-- After every write, the blocks so far are the frames of which all packets have arrived, and the
packet after them, in order; in the end only the last frame is not among them. -/
theorem feed_vp8_reordered {s0 : UInt16} {frames : List (List Packet)} {order : List Nat}
    {width height : Nat} (h : Delivered s0 frames raws)
    (hkey : ∀ ps ∈ frames.head?, Codec.Vp8.keyframeSize (frameData ps) = some (width, height))
    (ho : Assembler.FrameArrival frames order) (capacity : Nat) :
    (∀ k, ∃ e bs, (feed vp8 (Pipe.new capacity) (arriving raws (order.take k))).chunks =
        (BlockWriter.new [Track.vp8 width height]).writeAll bs ∧
      bs.map Block.data = (frames.take e).map frameData ∧
      ∀ j < frames.length, j < e ↔ Assembler.FrameComplete frames (order.take k) j) ∧
    ∃ bs, (feed vp8 (Pipe.new capacity) (arriving raws order)).chunks =
        (BlockWriter.new [Track.vp8 width height]).writeAll bs ∧
      bs.map Block.data = frames.dropLast.map frameData := by
  have hall : ∀ k, ∃ e bs, (feed vp8 (Pipe.new capacity) (arriving raws (order.take k))).chunks =
        (BlockWriter.new [Track.vp8 width height]).writeAll bs ∧
      bs.map Block.data = (frames.take e).map frameData ∧
      ∀ j < frames.length, j < e ↔ Assembler.FrameComplete frames (order.take k) j := by
    intro k
    obtain ⟨e, bs, hout, hdata, hcomplete⟩ := collectAll_arriving h ho hkey k
    exact ⟨e, bs, by rw [feed_new, hout, passed_writeAll], hdata, hcomplete⟩
  refine ⟨hall, ?_⟩
  obtain ⟨e, bs, hout, hdata, hcomplete⟩ := hall order.length
  rw [List.take_length] at hout hcomplete
  refine ⟨bs, hout, ?_⟩
  have hlast : ∀ j < frames.length, j < e ↔ j + 1 < frames.length := by
    intro j hj
    rw [hcomplete j hj, ho.complete_iff (fun ps hps => (h.frame ps hps).nonempty) hj]
  have htake : frames.take e = frames.dropLast := by
    rw [List.dropLast_eq_take]
    rcases Nat.eq_zero_or_pos frames.length with hzero | hpos
    · simp [List.eq_nil_of_length_eq_zero hzero]
    · have hlt := hlast (frames.length - 1) (by omega)
      have hbefore := hlast (frames.length - 1 - 1) (by omega)
      rw [show e = frames.length - 1 by omega]
  rw [hdata, htake]

/-- The first frame fills the window, and while the second one comes in, packets of the first one
that are still stored have to make room. -/
def reorderedFrames : List (List Packet) :=
  [keyframeIn 9 65530 0, keyframeIn 4 65539 3000, keyframeIn 2 65543 6000]

def reorderedArrival : List Nat := [0, 2, 1, 3, 4, 7, 6, 5, 8, 9, 12, 11, 10, 14, 13]

theorem feed_vp8_reordered_past_cut :
    Delivered 65530 reorderedFrames (reorderedFrames.flatten.map Packet.encode) ∧
    (∀ ps ∈ reorderedFrames.head?, Codec.Vp8.keyframeSize (frameData ps) = some (320, 240)) ∧
    Assembler.FrameArrival reorderedFrames reorderedArrival ∧
    ∃ bs, (feed vp8 (Pipe.new 64)
          (arriving (reorderedFrames.flatten.map Packet.encode) reorderedArrival)).chunks =
        (BlockWriter.new [Track.vp8 320 240]).writeAll bs ∧
      bs.map Block.data = reorderedFrames.dropLast.map frameData := by
  have hframe : ∀ ps ∈ reorderedFrames, VideoFrame ps := by
    intro ps hps
    simp only [reorderedFrames, List.mem_cons, List.not_mem_nil, or_false] at hps
    rcases hps with rfl | rfl | rfl <;> exact videoFrame_keyframeIn (by decide) _ _
  have h : Delivered 65530 reorderedFrames (reorderedFrames.flatten.map Packet.encode) :=
    .of_numbers (by decide) (by decide) hframe
  have hkey : ∀ ps ∈ reorderedFrames.head?,
      Codec.Vp8.keyframeSize (frameData ps) = some (320, 240) := by decide
  have ho : Assembler.FrameArrival reorderedFrames reorderedArrival :=
    ⟨by decide, by decide, by decide +kernel⟩
  exact ⟨h, hkey, ho, (feed_vp8_reordered h hkey ho 64).2⟩

end Headend.Media.Muxer
