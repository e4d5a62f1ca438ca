import Headend.Proofs.Media.Samples
import Headend.Proofs.WebM.RoundTrip
import Mathlib.Data.List.Basic

/-!
# The timestamps of a stream

A block bears the time at which its sample ends, which is how long all samples of the stream last
up to it. That time is kept in nanoseconds and rounded for each block anew, so that the errors of
rounding never add up.
-/

namespace Headend.WebM

open Ebml

/-! ## Rounding -/

/-- `t` is the millisecond nearest to so many nanoseconds; of two it is the later one. -/
def Nearest (nanos t : Nat) : Prop :=
  1000000 * t ≤ nanos + 500000 ∧ nanos < 1000000 * t + 500000

/-- Half a millisecond is whole microseconds, so going by way of these loses nothing. -/
theorem nearest_blockTimestamp {nanos : Nat} (h : nanos < (2 ^ 64 - 1) * 1000000) :
    Nearest nanos (blockTimestamp nanos) := by
  have hmicros : nanos / 1000 + 500 = (nanos + 500000) / 1000 := by omega
  have hfit : (nanos + 500000) / 1000000 < UInt64.size := by
    simp only [UInt64.size]
    omega
  have hmillis : blockTimestamp nanos = (nanos + 500000) / 1000000 := by
    rw [blockTimestamp, hmicros, Nat.div_div_eq_div_mul, Nat.mod_eq_of_lt hfit]
  rw [hmillis, Nearest]
  omega

theorem Nearest.le {n n' t t' : Nat} (h : Nearest n t) (h' : Nearest n' t') (hle : n ≤ n') :
    t ≤ t' := by
  unfold Nearest at h h'
  omega

/-- Every timestamp fits into its 64 bits. -/
theorem blockTimestamp_lt (nanos : Nat) : blockTimestamp nanos < 2 ^ 64 :=
  Nat.mod_lt _ (by decide)

/-! ## Tracks -/

theorem Track.length_encode_vp8_le {width height : Nat} (hwidth : width < 2 ^ 64)
    (hheight : height < 2 ^ 64) : (Track.vp8 width height).encode.length ≤ 200 := by
  have hvideo : (Media.video width height).encode.length ≤ 52 := by
    have hw := length_uint_le Id.pixelWidth hwidth
    have hh := length_uint_le Id.pixelHeight hheight
    have hbinary := length_binary_le Id.video
      (uint Id.pixelWidth width ++ uint Id.pixelHeight height)
    rw [List.length_append] at hbinary
    exact Nat.le_trans hbinary (by omega)
  have hentry := length_binary_le Id.trackEntry
    (uint Id.trackNumber 1 ++ uint Id.trackUid 67890 ++ uint Id.trackType 1
      ++ string Id.codecId "V_VP8" ++ string Id.name "Video" ++ [] ++ []
      ++ (Media.video width height).encode)
  have hrest : (uint Id.trackNumber 1 ++ uint Id.trackUid 67890 ++ uint Id.trackType 1
      ++ string Id.codecId "V_VP8" ++ string Id.name "Video" ++ [] ++ []).length ≤ 100 := by
    decide +kernel
  rw [List.length_append] at hentry
  exact Nat.le_trans hentry (by omega)

end Headend.WebM

namespace Headend.Media.Muxer

open Rtp WebM

variable {m₀ m : Muxer} {a : Assembler} {w : BlockWriter} {seen ss : List Sample}
  {s : Sample} {out : List Bytes} {b : Block} {bs : List Block}

/-! ## Blocks and the samples in them -/

theorem totalNanos_append (ss ss' : List Sample) :
    totalNanos (ss ++ ss') = totalNanos ss + totalNanos ss' := by
  induction ss with
  | nil => rw [List.nil_append, totalNanos, Nat.zero_add]
  | cons s ss ih => rw [List.cons_append, totalNanos, ih, totalNanos, Nat.add_assoc]

theorem totalNanos_take_le (ss : List Sample) {i j : Nat} (h : i ≤ j) :
    totalNanos (ss.take i) ≤ totalNanos (ss.take j) := by
  have hsplit : ss.take i ++ (ss.take j).drop i = ss.take j := by
    have htake := List.take_append_drop i (ss.take j)
    rwa [List.take_take, Nat.min_eq_left h] at htake
  rw [← hsplit, totalNanos_append]
  exact Nat.le_add_right _ _

/-- The blocks of these samples, each with the time at which its sample ends. -/
structure Stamped (ss : List Sample) (bs : List Block) : Prop where
  data : bs.map Block.data = ss.map Sample.data
  track : ∀ b ∈ bs, b.track = 1
  timestamp : ∀ i b, bs[i]? = some b →
    b.timestamp = blockTimestamp (totalNanos (ss.take (i + 1)))

namespace Stamped

theorem nil : Stamped [] [] := ⟨rfl, by simp, by simp⟩

theorem length_eq (h : Stamped ss bs) : bs.length = ss.length := by
  simpa using congrArg List.length h.data

theorem concat (h : Stamped ss bs) (hdata : b.data = s.data) (htrack : b.track = 1)
    (htimestamp : b.timestamp = blockTimestamp (totalNanos ss + s.nanos)) :
    Stamped (ss ++ [s]) (bs ++ [b]) := by
  have hlength := h.length_eq
  constructor
  case data => rw [List.map_append, List.map_append, h.data, List.map_singleton, hdata]; rfl
  case track =>
    intro c hc
    rcases List.mem_append.1 hc with hc | hc
    · exact h.track c hc
    · rwa [List.mem_singleton.1 hc]
  case timestamp =>
    intro i c hc
    -- Only the last block is new.
    rcases Nat.lt_trichotomy i bs.length with hlt | rfl | hgt
    · rw [List.getElem?_append_left hlt] at hc
      rw [List.take_append_of_le_length (by omega), h.timestamp i c hc]
    · rw [List.getElem?_concat_length] at hc
      obtain rfl := Option.some.inj hc
      have hall : totalNanos (ss ++ [s]) = totalNanos ss + s.nanos := totalNanos_append ss [s]
      rw [List.take_of_length_le (by simp; omega), hall, htimestamp]
    · rw [List.getElem?_eq_none (by simp; omega)] at hc
      cases hc

end Stamped

/-! ## Where the stream stands -/

/-- Those of the samples that a new muxer writes: all from the first one on with which its stream
can begin. -/
def streamed (m₀ : Muxer) (seen : List Sample) : List Sample :=
  seen.dropWhile fun s => (m₀.streamFor s.data).isNone

theorem streamed_concat_of_ne_nil (h : m₀.streamed seen ≠ []) (s : Sample) :
    m₀.streamed (seen ++ [s]) = m₀.streamed seen ++ [s] := by
  unfold streamed at h ⊢
  rw [List.dropWhile_append, if_neg (by simpa using h)]

theorem streamed_concat_of_nil (h : m₀.streamed seen = []) (s : Sample) :
    m₀.streamed (seen ++ [s]) = if (m₀.streamFor s.data).isNone then [] else [s] := by
  unfold streamed at h ⊢
  rw [List.dropWhile_append, h, if_pos (by simp), List.dropWhile_cons, List.dropWhile_nil]

/-- Where a muxer that was `m₀` stands after the samples `seen`, having put out `out`. -/
structure Timeline (m₀ m : Muxer) (seen : List Sample) (out : List Bytes) : Prop where
  position : m.position = totalNanos (m₀.streamed seen)
  stream : ∃ w bs, Stamped (m₀.streamed seen) bs ∧ out = w.writeAll bs ∧
    m.blocks = (if m₀.streamed seen = [] then m₀.blocks else some (w.advance bs)) ∧
    (m₀.streamed seen ≠ [] → ∃ frame, m₀.streamFor frame = some w)

theorem streamFor_congr {n : Muxer} (h : m.blocks = n.blocks) (frame : Bytes) :
    m.streamFor frame = n.streamFor frame := by
  rw [streamFor, streamFor, h]

namespace Timeline

theorem new (hposition : m₀.position = 0) : Timeline m₀ m₀ [] [] :=
  ⟨hposition, .new [], [], .nil, rfl, rfl, fun h => absurd rfl h⟩

/-- Only samples before all that are written are lost. -/
theorem lose (h : Timeline m₀ m seen out) (hstream : m.streamFor s.data = none) :
    Timeline m₀ m (seen ++ [s]) out := by
  obtain ⟨hposition, w, bs, hstamped, hout, hblocks, hw⟩ := h
  by_cases hnone : m₀.streamed seen = []
  · have hsame : m₀.streamed (seen ++ [s]) = m₀.streamed seen := by
      rw [if_pos hnone] at hblocks
      rw [streamFor_congr hblocks] at hstream
      rw [streamed_concat_of_nil hnone, hstream, hnone]
      rfl
    rw [← hsame] at hposition hstamped hblocks hw
    exact ⟨hposition, w, bs, hstamped, hout, hblocks, hw⟩
  · rw [if_neg hnone] at hblocks
    rw [streamFor_of_blocks hblocks] at hstream
    cases hstream

/-- The block of a sample comes behind all that are written. -/
theorem take (h : Timeline m₀ m seen out) (hstream : m.streamFor s.data = some w) :
    Timeline m₀ (m.wrote a w s) (seen ++ [s]) (out ++ [(w.write (m.blockOf a s)).2]) := by
  obtain ⟨hposition, w', bs, hstamped, hout, hblocks, hw⟩ := h
  have hposition' : (m.wrote a w s).position = totalNanos (m₀.streamed seen ++ [s]) := by
    rw [totalNanos_append, ← hposition]
    rfl
  have hstamped' : Stamped (m₀.streamed seen ++ [s]) (bs ++ [m.blockOf a s]) :=
    hstamped.concat rfl rfl (by rw [← hposition]; rfl)
  by_cases hnone : m₀.streamed seen = []
  · -- The stream begins with this sample.
    rw [if_pos hnone] at hblocks
    rw [streamFor_congr hblocks] at hstream
    have hsame : m₀.streamed (seen ++ [s]) = m₀.streamed seen ++ [s] := by
      rw [streamed_concat_of_nil hnone, hstream, hnone]
      rfl
    obtain rfl : bs = [] := by simpa [hnone] using hstamped.data
    rw [hout]
    refine ⟨hsame ▸ hposition', w, [m.blockOf a s], hsame ▸ hstamped', rfl, ?_,
      fun _ => ⟨_, hstream⟩⟩
    rw [if_neg (by simp [hsame])]
    rfl
  · -- It has begun, and its writer stands behind the last block.
    rw [if_neg hnone] at hblocks
    obtain rfl : w'.advance bs = w :=
      Option.some.inj ((streamFor_of_blocks hblocks s.data).symm.trans hstream)
    have hsame := streamed_concat_of_ne_nil hnone s
    refine ⟨hsame ▸ hposition', w', bs ++ [m.blockOf a s], hsame ▸ hstamped', ?_, ?_,
      fun _ => hw hnone⟩
    · rw [hout, BlockWriter.writeAll_append]
      rfl
    · rw [if_neg (by simp [hsame]), BlockWriter.advance_append]
      rfl

theorem respected (m₀ : Muxer) : Respected (Timeline m₀) where
  congr h _ hblocks hposition :=
    ⟨hposition.trans h.position, by rw [hblocks]; exact h.stream⟩
  lose h hstream := h.lose hstream
  take h _ hstream := h.take hstream

end Timeline

/-! ## The track -/

/-- A muxer whose streams have one track that fits into the header. -/
theorem track_of_streamFor (hm : m₀ = opus ∨ m₀ = vp8) {frame : Bytes}
    (h : m₀.streamFor frame = some w) :
    ∃ t : Track, w = .new [t] ∧ ([t].flatMap Track.encode).length < Ebml.Vint.sizeLimit := by
  rcases hm with rfl | rfl
  · obtain rfl : _ = w := Option.some.inj h
    exact ⟨Track.opus, rfl, by decide +kernel⟩
  · obtain ⟨⟨width, height⟩, hsize, rfl⟩ := Option.map_eq_some_iff.1 h
    obtain ⟨hwidth, hheight⟩ := Codec.Vp8.lt_of_keyframeSize hsize
    have hshort : (Track.vp8 width height).encode.length ≤ 200 :=
      Track.length_encode_vp8_le (by omega) (by omega)
    refine ⟨Track.vp8 width height, rfl, ?_⟩
    rw [List.flatMap_singleton]
    exact Nat.lt_of_le_of_lt hshort (by decide)

/-! ## The stream -/

/-- The block timestamps of a stream that stays within their range. -/
theorem Stamped.nearest (h : Stamped ss bs) (hposition : totalNanos ss < (2 ^ 64 - 1) * 1000000)
    {i : Nat} (hb : bs[i]? = some b) : Nearest (totalNanos (ss.take (i + 1))) b.timestamp := by
  have hle : totalNanos (ss.take (i + 1)) ≤ totalNanos ss := by
    have hlen := totalNanos_take_le ss (Nat.le_max_left (i + 1) ss.length)
    rwa [List.take_of_length_le (Nat.le_max_right (i + 1) ss.length)] at hlen
  rw [h.timestamp i b hb]
  exact nearest_blockTimestamp (Nat.lt_of_le_of_lt hle hposition)

/-- Rounding keeps the order. -/
theorem Stamped.ordered (h : Stamped ss bs) (hposition : totalNanos ss < (2 ^ 64 - 1) * 1000000) :
    bs.Pairwise (·.timestamp ≤ ·.timestamp) := by
  rw [List.pairwise_iff_getElem]
  intro i j hi hj hij
  have hearlier := h.nearest hposition (List.getElem?_eq_getElem hi)
  have hlater := h.nearest hposition (List.getElem?_eq_getElem hj)
  exact hearlier.le hlater (totalNanos_take_le ss (Nat.succ_le_succ (Nat.le_of_lt hij)))

theorem Stamped.sized (h : Stamped ss bs)
    (hdata : ∀ s ∈ ss, s.data.length + 4 < Ebml.Vint.sizeLimit) : ∀ b ∈ bs, b.Sized := by
  intro b hb
  obtain ⟨s, hs, hsame⟩ : ∃ s ∈ ss, s.data = b.data := by
    have hmem := List.mem_map_of_mem (f := Block.data) hb
    rwa [h.data, List.mem_map] at hmem
  obtain ⟨i, hi⟩ := List.getElem?_of_mem hb
  have hone : Ebml.Vint.length 1 = 1 := by decide
  have hshort := hdata s hs
  rw [hsame] at hshort
  constructor
  case track => rw [h.track b hb]; decide
  case timestamp => rw [h.timestamp i b hi]; exact blockTimestamp_lt _
  case body => rw [h.track b hb, hone]; omega

/-- The samples that a new muxer writes for these packets. -/
def samplesWritten (m : Muxer) (packets : List Bytes) : List Sample :=
  m.streamed (m.assembler.yields packets).flatten

/-- Each block of a stream bears the millisecond nearest to the time that all samples up to its own
last together, and no block is before the one that precedes it. These are the timestamps that a
player makes out, provided that the size of every block can be told. -/
theorem feed_timestamps (hm : m = opus ∨ m = vp8) (capacity : Nat) (packets : List Bytes)
    (hposition :
      (feed m (Pipe.new capacity) packets).writer.position < (2 ^ 64 - 1) * 1000000) :
    ∃ tracks bs,
      (feed m (Pipe.new capacity) packets).chunks = (BlockWriter.new tracks).writeAll bs ∧
      (feed m (Pipe.new capacity) packets).writer.position =
        totalNanos (m.samplesWritten packets) ∧
      bs.map Block.data = (m.samplesWritten packets).map Sample.data ∧
      (∀ i b, bs[i]? = some b →
        Nearest (totalNanos ((m.samplesWritten packets).take (i + 1))) b.timestamp) ∧
      bs.Pairwise (·.timestamp ≤ ·.timestamp) ∧
      ((∀ s ∈ m.samplesWritten packets, s.data.length + 4 < Ebml.Vint.sizeLimit) →
        ∃ r, Reader.read (feed m (Pipe.new capacity) packets).chunks.flatten = some r ∧
          r.blocks = bs.map Block.entry) := by
  have hnarrow : m.assembler.Narrow := by
    rcases hm with rfl | rfl <;> exact .new _
  have hstart : m.position = 0 := by
    rcases hm with rfl | rfl <;> rfl
  obtain ⟨hnanos, w, bs, hstamped, hout, -, hbegun⟩ :=
    (Timeline.respected m).collectAll (.new hstart) hnarrow packets
  change Stamped (m.samplesWritten packets) bs at hstamped
  change (collectAll m packets).1.position = totalNanos (m.samplesWritten packets) at hnanos
  change m.samplesWritten packets ≠ [] → _ at hbegun
  rw [feed_new] at hposition ⊢
  change (collectAll m packets).1.position < _ at hposition
  rw [hnanos] at hposition
  obtain ⟨t, hsame, htrack⟩ : ∃ t : Track, w.writeAll bs = (BlockWriter.new [t]).writeAll bs ∧
      ([t].flatMap Track.encode).length < Ebml.Vint.sizeLimit := by
    by_cases hnone : m.samplesWritten packets = []
    · -- Any track will do for a stream that does not begin.
      obtain rfl : bs = [] := by simpa [hnone] using hstamped.data
      exact ⟨Track.opus, rfl, by decide +kernel⟩
    · obtain ⟨frame, hframe⟩ := hbegun hnone
      obtain ⟨t, rfl, htrack⟩ := track_of_streamFor hm hframe
      exact ⟨t, rfl, htrack⟩
  rw [List.nil_append, hsame] at hout
  refine ⟨[t], bs, ?_, hnanos, hstamped.data, fun i b hb => hstamped.nearest hposition hb,
    hstamped.ordered hposition, fun hdata => ?_⟩
  · rw [hout, passed_writeAll]
  · obtain ⟨r, hreads, hblocks, -⟩ := reads_writeAll_new htrack (hstamped.sized hdata)
    refine ⟨r, ?_, hblocks⟩
    rw [hout, passed_writeAll]
    exact hreads.read_eq

/-- Opus frames of 30 ticks, which are five eighths of a millisecond. The last one has not ended. -/
def shortFrames : List Packet :=
  [.plain 111 1 0 1 false [1], .plain 111 2 30 1 false [2], .plain 111 3 60 1 false [3],
    .plain 111 4 90 1 false [4]]

/-- Each frame alone would be rounded to a millisecond, but three last less than two. -/
theorem feed_timestamps_short :
    (feed opus (Pipe.new 4) (shortFrames.map Packet.encode)).writer.position <
      (2 ^ 64 - 1) * 1000000 ∧
    ∃ r, Reader.read (feed opus (Pipe.new 4) (shortFrames.map Packet.encode)).chunks.flatten =
        some r ∧
      r.blocks.map (·.timestamp) = [1, 1, 2] := by
  have hposition : (feed opus (Pipe.new 4) (shortFrames.map Packet.encode)).writer.position <
      (2 ^ 64 - 1) * 1000000 := by decide +kernel
  have hwritten : opus.samplesWritten (shortFrames.map Packet.encode) =
      [⟨[1], 625000⟩, ⟨[2], 625000⟩, ⟨[3], 625000⟩] := by decide +kernel
  obtain ⟨tracks, bs, -, -, hdata, hnearest, -, hreads⟩ :=
    feed_timestamps (.inl rfl) 4 (shortFrames.map Packet.encode) hposition
  rw [hwritten] at hdata hnearest hreads
  obtain ⟨r, hread, hblocks⟩ := hreads (by decide)
  obtain ⟨b₁, b₂, b₃, rfl⟩ : ∃ b₁ b₂ b₃, bs = [b₁, b₂, b₃] :=
    List.length_eq_three.1 (by simpa using congrArg List.length hdata)
  have h₁ : Nearest 625000 b₁.timestamp := hnearest 0 b₁ rfl
  have h₂ : Nearest 1250000 b₂.timestamp := hnearest 1 b₂ rfl
  have h₃ : Nearest 1875000 b₃.timestamp := hnearest 2 b₃ rfl
  have htimes : b₁.timestamp = 1 ∧ b₂.timestamp = 1 ∧ b₃.timestamp = 2 := by
    unfold Nearest at h₁ h₂ h₃
    omega
  refine ⟨hposition, r, hread, ?_⟩
  simp [hblocks, Block.entry, htimes]

end Headend.Media.Muxer
