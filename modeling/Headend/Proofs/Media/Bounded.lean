import Headend.Proofs.Media.Crash
import Headend.Proofs.Rtp.Burst
import Headend.Proofs.Rtp.Occupied

/-!
# What a muxer holds back

Whatever is written to a muxer, each write comes to an end, and what its assembler then stores fits
into the window. One packet of an Opus stream gives no more blocks than the window holds packets.
-/

namespace Headend.Media.Muxer

open Rtp WebM

variable {m : Muxer}

/-- Between two packets: little is stored, and under no number twice. -/
structure Sparing (m : Muxer) : Prop where
  narrow : m.assembler.Narrow
  distinct : m.assembler.slots.Distinct

theorem Sparing.opus : Sparing opus := ⟨.new _, Slots.distinct_empty⟩

theorem Sparing.vp8 : Sparing vp8 := ⟨.new _, Slots.distinct_empty⟩

/-- The loop of a write takes all samples out. -/
theorem Sparing.drains (h : Sparing m) {packet : Bytes} {p : Packet}
    (hparse : Packet.parse packet = .ok p) :
    ∃ ss, Assembler.Drains (m.assembler.push p) ss (collect m packet).writer.assembler := by
  obtain ⟨ss, a, hdrains, -, hlength⟩ := h.narrow.push p
  have hfuel : ss.length < moveLimit := Nat.lt_trans hlength (by decide)
  have hleft := resume_le
    (m := { m with assembler := m.assembler.push p, written := 0, samples := 0 }) hdrains hfuel
  rw [← collect_eq hparse] at hleft
  exact ⟨ss, hleft.1 ▸ hdrains⟩

theorem Sparing.collect (h : Sparing m) (packet : Bytes) :
    Sparing (Media.collect m packet).writer := by
  refine ⟨(collect_ends h.narrow packet).2.2, ?_⟩
  by_cases hok : ∃ p, Packet.parse packet = .ok p
  · obtain ⟨p, hparse⟩ := hok
    obtain ⟨ss, hdrains⟩ := h.drains hparse
    exact (Assembler.push_distinct h.distinct p).of_within hdrains.within
  · rw [(collect_of_not_ok fun p hp => hok ⟨p, hp⟩).1]
    exact h.distinct

theorem Sparing.collectAll (h : Sparing m) (packets : List Bytes) :
    Sparing (Media.collectAll m packets).1 := by
  induction packets generalizing m with
  | nil => exact h
  | cons packet packets ih => exact ih (h.collect packet)

/-! ## Writes -/

/-- After any writes, the assembler is at rest, and the loop of one more write ends: it takes out
samples until there are none, and the write is over with a count or an error, unless a reader below
it crashes. -/
structure Bounded (m : Muxer) : Prop where
  rested : ∀ capacity packets, (feed m (Pipe.new capacity) packets).writer.assembler.Rested
  drained : ∀ capacity packets packet p, Packet.parse packet = .ok p →
    ∃ ss, Assembler.Drains ((feed m (Pipe.new capacity) packets).writer.assembler.push p) ss
      (feed m (Pipe.new capacity) (packets ++ [packet])).writer.assembler
  ends : ∀ capacity packets packet, ¬ Overruns packet →
    ∃ result, (write true (feed m (Pipe.new capacity) packets).writer
      (feed m (Pipe.new capacity) packets).pipe packet).ending = .finished result

theorem Sparing.bounded (h : Sparing m) : Bounded m where
  rested capacity packets := by
    rw [feed_new]
    have hall := h.collectAll packets
    exact hall.narrow.rested hall.distinct
  drained capacity packets packet p hparse := by
    rw [feed_new, feed_new, collectAll_concat]
    exact (h.collectAll packets).drains hparse
  ends capacity packets packet hno := by
    rw [feed_new]
    exact write_returns (h.collectAll packets).narrow (Nat.le_max_right capacity 1) hno

/-! ## Blocks of an Opus stream -/

variable {tracks : List Track} {out : List Bytes} {bs : List Block}

/-- A write adds no more blocks than the window holds packets. -/
theorem Ledger.write_steady (h : Ledger tracks m out bs) (hsteady : m.assembler.Steady)
    (packet : Bytes) :
    ∃ new, new.length ≤ Assembler.depth ∧ (collect m packet).writer.assembler.Steady ∧
      Ledger tracks (collect m packet).writer (out ++ (collect m packet).chunks) (bs ++ new) := by
  by_cases hok : ∃ p, Packet.parse packet = .ok p
  · obtain ⟨p, hparse⟩ := hok
    obtain ⟨ss, a, hdrains, ha, hlength⟩ := hsteady.push p
    obtain ⟨new, hdata, hassembler, hledger⟩ :=
      h.write hparse hdrains (Nat.lt_of_le_of_lt hlength (by decide))
    have hcount : new.length = ss.length := by simpa using congrArg List.length hdata
    exact ⟨new, by omega, hassembler ▸ ha, hledger⟩
  · obtain ⟨hwriter, hchunks⟩ := collect_of_not_ok (m := m) fun p hp => hok ⟨p, hp⟩
    rw [hwriter, hchunks, List.append_nil]
    exact ⟨[], Nat.zero_le _, hsteady, by rwa [List.append_nil]⟩

theorem collectAll_steady (packets : List Bytes) :
    ∃ bs, (collectAll opus packets).1.assembler.Steady ∧
      Ledger [Track.opus] (collectAll opus packets).1 (collectAll opus packets).2 bs := by
  induction packets using List.reverseRecOn with
  | nil => exact ⟨[], .start, Ledger.opus⟩
  | append_singleton packets packet ih =>
    obtain ⟨bs, hsteady, hledger⟩ := ih
    obtain ⟨new, -, hsteady', hledger'⟩ := hledger.write_steady hsteady packet
    rw [collectAll_concat]
    exact ⟨bs ++ new, hsteady', hledger'⟩

/-- Whatever was written before, the write of a packet to an Opus or a VP8 muxer ends, and leaves no
sample and no more packets than fit into the window; to an Opus stream it adds no more blocks than
that. -/
theorem feed_bounded : Bounded opus ∧ Bounded vp8 ∧
    ∀ capacity packets packet, ∃ bs new,
      (feed opus (Pipe.new capacity) packets).chunks =
        (BlockWriter.new [Track.opus]).writeAll bs ∧
      (feed opus (Pipe.new capacity) (packets ++ [packet])).chunks =
        (BlockWriter.new [Track.opus]).writeAll (bs ++ new) ∧
      new.length ≤ Assembler.depth := by
  refine ⟨Sparing.opus.bounded, Sparing.vp8.bounded, fun capacity packets packet => ?_⟩
  obtain ⟨bs, hsteady, hledger⟩ := collectAll_steady packets
  obtain ⟨new, hcount, -, hledger'⟩ := hledger.write_steady hsteady packet
  rw [feed_new, feed_new, collectAll_concat]
  exact ⟨bs, new, by rw [hledger.out, passed_writeAll], by rw [hledger'.out, passed_writeAll],
    hcount⟩

end Headend.Media.Muxer
