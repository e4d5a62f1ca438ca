import Headend.Proofs.Media.Opus
import Headend.Proofs.Rtp.InOrder

/-!
# The position of an Opus stream

How far an Opus stream has come when its packets arrive in order: each write adds the time from the
packet before. The one exception is the packet that bears the largest sequence number, for the
sample before it lasts no time. A stream of frames of 20 ms falls behind by one of them in every
round of the sequence numbers.
-/

namespace Headend.Media.Muxer

open Rtp WebM

variable {m : Muxer} {w : BlockWriter} {c n k : Nat} {p next : Packet} {packet : Bytes}

/-! ## One packet -/

/-- A muxer that holds one packet and whose stream has begun. -/
structure Holds (c : Nat) (p : Packet) (m : Muxer) : Prop where
  assembler : m.assembler.Holding c p
  begun : ∃ w, m.blocks = some w

/-- A stream that has begun moves on by the samples of a packet, and goes on. -/
theorem collect_begun {ss : List Sample} {a : Assembler} (hbegun : ∃ w, m.blocks = some w)
    (hparse : Packet.parse packet = .ok p) (hdrain : Assembler.Drains (m.assembler.push p) ss a)
    (hfuel : ss.length < moveLimit) :
    (collect m packet).writer.assembler = a ∧ (∃ w, (collect m packet).writer.blocks = some w) ∧
      (collect m packet).writer.position = m.position + totalNanos ss := by
  obtain ⟨w, hblocks⟩ := hbegun
  obtain ⟨bs, h⟩ := puts_collect hparse hdrain hfuel fun s _ => streamFor_of_blocks hblocks s.data
  refine ⟨h.assembler, ?_, h.position⟩
  rw [h.blocks, hblocks]
  split
  · exact ⟨w, rfl⟩
  · exact ⟨_, rfl⟩

theorem Holds.first (hparse : Packet.parse packet = .ok p) (hseq : seqAt c = p.sequence)
    (hpayload : p.payload ≠ []) :
    Holds c p (collect opus packet).writer ∧ (collect opus packet).writer.position = 0 := by
  obtain ⟨a, hdrains, ha⟩ := Assembler.Holding.first hseq hpayload
  obtain ⟨hassembler, hbegun, hposition⟩ :=
    collect_begun (m := opus) ⟨_, rfl⟩ hparse hdrains (by decide)
  exact ⟨⟨hassembler ▸ ha, hbegun⟩, hposition⟩

theorem Holds.collect (h : Holds c p m) (hparse : Packet.parse packet = .ok next)
    (hseq : seqAt (c + 1) = next.sequence) (hpayload : next.payload ≠ []) :
    Holds (c + 1) next (Media.collect m packet).writer ∧
      (Media.collect m packet).writer.position = m.position + lasting p next := by
  obtain ⟨a, hdrains, ha⟩ := h.assembler.push hseq hpayload
  obtain ⟨hassembler, hbegun, hposition⟩ := collect_begun h.begun hparse hdrains
    (show 1 < moveLimit by decide)
  exact ⟨⟨hassembler ▸ ha, hbegun⟩, hposition⟩

/-! ## A stream in order -/

variable {s0 : UInt16} {t0 : UInt32} {raw : Nat → Bytes} {pkt : Nat → Packet}

/-- How long the packets before this one last. -/
def elapsed (pkt : Nat → Packet) : Nat → Nat
  | 0 => 0
  | k + 1 => elapsed pkt k + lasting (pkt k) (pkt (k + 1))

theorem collectAll_in_order (hs : Numbered s0 n raw pkt) (hk : k < n) :
    Holds (s0.toNat + k) (pkt k) (collectAll opus ((List.range (k + 1)).map raw)).1 ∧
      (collectAll opus ((List.range (k + 1)).map raw)).1.position =
        elapsed pkt k := by
  have hseq : ∀ i < n, seqAt (s0.toNat + i) = (pkt i).sequence := fun i hi => by
    rw [hs.sequence i hi, seqAt_toNat_add]
  induction k with
  | zero => exact Holds.first (hs.parse 0 hk) (hseq 0 hk) (hs.payload 0 hk)
  | succ k ih =>
    obtain ⟨hholds, hposition⟩ := ih (Nat.lt_of_succ_lt hk)
    obtain ⟨hholds', hposition'⟩ :=
      hholds.collect (hs.parse (k + 1) hk) (hseq (k + 1) hk) (hs.payload (k + 1) hk)
    rw [List.range_succ (n := k + 1), List.map_append, List.map_singleton, collectAll_concat]
    exact ⟨hholds', by rw [hposition', hposition, elapsed]⟩

/-- Frames of 20 ms. -/
structure Paced (t0 : UInt32) (n : Nat) (pkt : Nat → Packet) : Prop where
  timestamp : ∀ i < n, (pkt i).timestamp = t0 + 960 * UInt32.ofNat i

theorem Paced.lasting (hp : Paced t0 n pkt) (hk : k + 1 < n) : Rtp.lasting (pkt k) (pkt (k + 1)) =
    if (pkt (k + 1)).sequence = 65535 then 0 else 20000000 := by
  have hticks : (pkt (k + 1)).timestamp - (pkt k).timestamp = 960 := by
    rw [hp.timestamp _ hk, hp.timestamp k (Nat.lt_of_succ_lt hk), UInt32.ofNat_add]
    grind
  have hframe : quotientNanos (960 : UInt32).toNat Codec.Opus.clockRate = 20000000 := by decide
  rw [Rtp.lasting, elapsedNanos, hticks, hframe]

theorem Numbered.sequence_eq_last_iff (hs : Numbered s0 n raw pkt) {i : Nat} (hi : i < n) :
    (pkt i).sequence = 65535 ↔ (s0.toNat + i) % 65536 = 65535 := by
  rw [hs.sequence i hi, ← seqAt_toNat_add, seqAt_eq_last_iff]

/-- A frame is lost whenever the sequence numbers come around. -/
theorem elapsed_paced (hs : Numbered s0 n raw pkt) (hp : Paced t0 n pkt) (hk : k < n) :
    elapsed pkt k + 20000000 * ((s0.toNat + k + 1) / 65536 - (s0.toNat + 1) / 65536) =
      20000000 * k := by
  induction k with
  | zero => simp [elapsed]
  | succ k ih =>
    have hbefore := ih (Nat.lt_of_succ_lt hk)
    have hlast := hs.sequence_eq_last_iff hk
    rw [elapsed, hp.lasting hk]
    by_cases hwrap : (s0.toNat + (k + 1)) % 65536 = 65535
    · rw [if_pos (hlast.2 hwrap)]
      omega
    · rw [if_neg fun h => hwrap (hlast.1 h)]
      omega

/-- No round is completed where no packet behind the first one bears the largest number. -/
theorem rounds_eq_zero_iff (hs : Numbered s0 n raw pkt) :
    (s0.toNat + n) / 65536 - (s0.toNat + 1) / 65536 = 0 ↔
      ∀ i, 0 < i → i < n → (pkt i).sequence ≠ 65535 := by
  constructor
  · intro hnone i hi hin heq
    have := (hs.sequence_eq_last_iff hin).1 heq
    omega
  · intro hall
    -- The round that begins behind the first packet ends with the largest number.
    refine Classical.byContradiction fun hsome => ?_
    have hend : 65536 * ((s0.toNat + 1) / 65536 + 1) - 1 - s0.toNat < n := by omega
    refine hall _ (by omega) hend ((hs.sequence_eq_last_iff hend).2 (by omega))

/-- The position after packets in order is 20 ms for each but the first, less 20 ms for each round
of the sequence numbers that they complete. It is exact if no packet behind the first one bears the
largest number. -/
theorem position_in_order (hs : Numbered s0 n raw pkt) (hp : Paced t0 n pkt) (capacity : Nat) :
    (feed opus (Pipe.new capacity) ((List.range n).map raw)).writer.position +
      20000000 * ((s0.toNat + n) / 65536 - (s0.toNat + 1) / 65536) = 20000000 * (n - 1) ∧
    ((feed opus (Pipe.new capacity) ((List.range n).map raw)).writer.position =
      20000000 * (n - 1) ↔ ∀ i, 0 < i → i < n → (pkt i).sequence ≠ 65535) := by
  have hposition : (feed opus (Pipe.new capacity) ((List.range n).map raw)).writer.position +
      20000000 * ((s0.toNat + n) / 65536 - (s0.toNat + 1) / 65536) = 20000000 * (n - 1) := by
    rw [feed_new]
    cases n with
    | zero =>
      have hround : s0.toNat / 65536 - (s0.toNat + 1) / 65536 = 0 := by omega
      rw [Nat.add_zero, hround]
      rfl
    | succ k =>
      have hsum := elapsed_paced hs hp (Nat.lt_succ_self k)
      rwa [← (collectAll_in_order hs (Nat.lt_succ_self k)).2] at hsum
  refine ⟨hposition, ?_⟩
  rw [← rounds_eq_zero_iff hs]
  generalize (feed opus (Pipe.new capacity) ((List.range n).map raw)).writer.position = position
    at hposition
  omega

/-- Four frames around the largest sequence number. -/
def wrapFrame (i : Nat) : Packet :=
  .plain 111 (65534 + UInt16.ofNat i) (4294966336 + 960 * UInt32.ofNat i) 1 false
    [0xF8, UInt8.ofNat i]

theorem numbered_wrapFrame : Numbered 65534 4 (fun i => (wrapFrame i).encode) wrapFrame :=
  ⟨by decide, by decide, by decide⟩

theorem paced_wrapFrame : Paced 4294966336 4 wrapFrame := ⟨by decide⟩

theorem position_in_order_at_wrap :
    Numbered 65534 4 (fun i => (wrapFrame i).encode) wrapFrame ∧ Paced 4294966336 4 wrapFrame ∧
    (feed opus (Pipe.new 64) ((List.range 4).map fun i => (wrapFrame i).encode)).writer.position =
      40000000 := by
  refine ⟨numbered_wrapFrame, paced_wrapFrame, ?_⟩
  have hposition := (position_in_order numbered_wrapFrame paced_wrapFrame 64).1
  have hround : ((65534 : UInt16).toNat + 4) / 65536 - ((65534 : UInt16).toNat + 1) / 65536 = 1 :=
    by decide
  rw [hround] at hposition
  exact Nat.add_right_cancel (m := 20000000) hposition

/-- The position is not that of the RTP timeline. -/
theorem position_behind : ¬ ∀ (s0 : UInt16) (t0 : UInt32) (n : Nat) (raw : Nat → Bytes)
    (pkt : Nat → Packet), Numbered s0 n raw pkt → Paced t0 n pkt → ∀ capacity,
      (feed opus (Pipe.new capacity) ((List.range n).map raw)).writer.position =
        20000000 * (n - 1) := by
  intro h
  have hexact := h 65534 4294966336 4 _ wrapFrame numbered_wrapFrame paced_wrapFrame 64
  have hposition : (feed opus (Pipe.new 64)
      ((List.range 4).map fun i => (wrapFrame i).encode)).writer.position = 40000000 := by decide
  rw [hposition] at hexact
  exact absurd hexact (by decide)

end Headend.Media.Muxer
