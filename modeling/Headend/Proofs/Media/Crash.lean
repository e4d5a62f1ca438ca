import Headend.Proofs.Media.AnnexB
import Headend.Proofs.Media.Ending
import Headend.Proofs.Pipe.Basic
import Headend.Proofs.Rtp.Overrun

/-!
# Packets that crash a writer

Whatever bytes a writer is given, the write comes back with a count or an error, unless the bytes
crash a reader below it: the parser, on an extension that runs past its packet, and the H.264
depacketizer, on an aggregate with an odd byte at its end. Whether they do is a matter of the bytes,
and for H.264 of whether the output has begun, but not of the pipe.
-/

namespace Headend.Media

open Rtp Codec

/-! ## Moves -/

section

variable {W : Type} [PacketWriter W] {w : W} {pipe : Pipe} {drain : Bool} {packet : Bytes}

/-- Once a packet is begun, nothing crashes any more. -/
theorem writeMoves_ne_crashed (hresume : ∀ w : W, (PacketWriter.resume w).2 ≠ .crash) (fuel : Nat)
    (w : W) (pipe : Pipe) (out : List Bytes) {move : Move} (hmove : move ≠ .crash) :
    (writeMoves drain fuel w pipe out move).ending ≠ .crashed := by
  induction fuel generalizing w pipe out move with
  | zero =>
    rw [writeMoves]
    simp
  | succ fuel ih =>
    cases move with
    | crash => exact absurd rfl hmove
    | finish result =>
      rw [writeMoves]
      simp
    | again => exact ih _ _ _ (hresume w)
    | last chunk result =>
      rw [writeMoves]
      split <;> simp
    | emit chunk =>
      rw [writeMoves]
      split
      · exact ih _ _ _ (hresume w)
      · simp
      · simp

/-- A write crashes as it begins or not at all, whatever pipe it goes into. -/
theorem write_crashed_iff (hresume : ∀ w : W, (PacketWriter.resume w).2 ≠ .crash) :
    (write drain w pipe packet).ending = .crashed ↔ (PacketWriter.accept w packet).2 = .crash := by
  constructor
  · intro h
    refine Classical.byContradiction fun hmove => ?_
    exact writeMoves_ne_crashed hresume moveLimit _ pipe [] hmove h
  · intro h
    have hwrite : (write drain w pipe packet).ending = (writeMoves drain moveLimit
        (PacketWriter.accept w packet).1 pipe [] (PacketWriter.accept w packet).2).ending := rfl
    rw [hwrite, h]
    rfl

/-- A chunk on its way is no part of how the packet goes on. -/
theorem collectMoves_emit (fuel : Nat) (w : W) (chunk : Bytes) :
    (collectMoves (fuel + 1) w [] (.emit chunk)).writer =
        (collectMoves fuel (PacketWriter.resume w).1 [] (PacketWriter.resume w).2).writer ∧
      (collectMoves (fuel + 1) w [] (.emit chunk)).ending =
        (collectMoves fuel (PacketWriter.resume w).1 [] (PacketWriter.resume w).2).ending := by
  have hemit : collectMoves (fuel + 1) w [] (.emit chunk) = collectMoves fuel
      (PacketWriter.resume w).1 ([] ++ [chunk]) (PacketWriter.resume w).2 := rfl
  rw [hemit, collectMoves_out]
  exact ⟨rfl, rfl⟩

/-- A write that passes leaves the writer as a pipe without limits would. -/
theorem writeMoves_writer (fuel : Nat) (w : W) (pipe : Pipe) (out : List Bytes) (move : Move)
    (h : (writeMoves drain fuel w pipe out move).ending.Passes) :
    (writeMoves drain fuel w pipe out move).writer = (collectMoves fuel w [] move).writer := by
  induction fuel generalizing w pipe out move with
  | zero => rfl
  | succ fuel ih =>
    cases move with
    | crash => rfl
    | finish result => rfl
    | again => exact ih _ _ _ _ h
    | last chunk result =>
      rw [writeMoves]
      split <;> rfl
    | emit chunk =>
      rw [(collectMoves_emit fuel w chunk).1]
      rw [writeMoves] at h ⊢
      cases hsend : send drain pipe chunk with
      | mk more offer =>
        rw [hsend] at h
        cases offer with
        | accepted n pipe' => exact ih _ _ _ _ h
        | broken => cases h
        | wait => exact h.elim

/-- A reader that takes what is queued leaves room for the next chunk, unless the pipe is broken. -/
theorem send_drained (hpipe : 0 < pipe.capacity) (chunk : Bytes) :
    (∃ more n pipe', send true pipe chunk = (more, .accepted n pipe') ∧ 0 < pipe'.capacity) ∨
      ∃ more, send true pipe chunk = (more, .broken) := by
  cases hoffer : pipe.offer chunk with
  | accepted n pipe' =>
    refine .inl ⟨[], n, pipe', by simp [send, hoffer], ?_⟩
    rwa [Pipe.capacity_of_accepted hoffer]
  | broken => exact .inr ⟨[], by simp [send, hoffer]⟩
  | wait =>
    -- The reader takes all there is, and the chunk is offered once more.
    have hsend : send true pipe chunk = (pipe.drain.1, pipe.drain.2.1.offer chunk) := by
      simp [send, hoffer]
    rw [hsend]
    cases hagain : pipe.drain.2.1.offer chunk with
    | accepted n pipe' =>
      refine .inl ⟨_, n, pipe', rfl, ?_⟩
      rwa [Pipe.capacity_of_accepted hagain, Pipe.capacity_drain]
    | broken => exact .inr ⟨_, rfl⟩
    | wait => exact absurd hagain (Pipe.offer_drain_ne_wait hpipe)

/-- A write that would end in a pipe without limits ends in one that is read. -/
theorem writeMoves_finished (fuel : Nat) (w : W) (out : List Bytes) (move : Move)
    (hpipe : 0 < pipe.capacity)
    (h : ∃ result, (collectMoves fuel w [] move).ending = .finished result) :
    ∃ result, (writeMoves true fuel w pipe out move).ending = .finished result := by
  induction fuel generalizing w pipe out move with
  | zero =>
    obtain ⟨result, h⟩ := h
    cases h
  | succ fuel ih =>
    cases move with
    | crash =>
      obtain ⟨result, h⟩ := h
      cases h
    | finish result => exact ⟨result, rfl⟩
    | again => exact ih _ _ _ hpipe h
    | last chunk result =>
      rw [writeMoves]
      rcases send_drained hpipe chunk with ⟨more, n, pipe', hsend, -⟩ | ⟨more, hsend⟩
      · rw [hsend]
        exact ⟨_, rfl⟩
      · rw [hsend]
        exact ⟨_, rfl⟩
    | emit chunk =>
      rw [writeMoves]
      rcases send_drained hpipe chunk with ⟨more, n, pipe', hsend, hpipe'⟩ | ⟨more, hsend⟩
      · rw [hsend]
        refine ih _ _ _ hpipe' ?_
        rwa [(collectMoves_emit fuel w chunk).2] at h
      · rw [hsend]
        exact ⟨_, rfl⟩

/-- A write that does not crash, and that would not wait for a pipe without limits, is over once it
has a reader. -/
theorem write_finished (hpipe : 0 < pipe.capacity) (hends : (collect w packet).ending ≠ .blocked)
    (hno : ∀ pipe, (write true w pipe packet).ending ≠ .crashed) :
    ∃ result, (write true w pipe packet).ending = .finished result := by
  have hending : (write true w (Pipe.new 0) packet).ending = (collect w packet).ending :=
    writeMoves_ending 0 moveLimit _ [] [] _
  refine writeMoves_finished moveLimit _ [] _ hpipe ?_
  change ∃ result, (collect w packet).ending = .finished result
  cases hcollect : (collect w packet).ending with
  | finished result => exact ⟨result, rfl⟩
  | blocked => exact absurd hcollect hends
  | crashed => exact absurd (hending.trans hcollect) (hno _)

/-! ## States between packets -/

/-- A writer in use: any packets were written before, into any pipes, and each write was over before
the next one, none for good. -/
inductive Reaches (w₀ : W) : W → Prop where
  | start : Reaches w₀ w₀
  | write {w : W} {drain : Bool} {pipe : Pipe} {packet : Bytes} (hbefore : Reaches w₀ w)
      (hpasses : (write drain w pipe packet).ending.Passes) :
      Reaches w₀ (write drain w pipe packet).writer

/-- The packet crashes the writer in the states that `crashes` names, whatever the pipe. In all
others its write is over with a count or an error, if the pipe's reader takes what is queued. -/
structure Returns (w₀ : W) (packet : Bytes) (crashes : W → Prop) : Prop where
  crashed : ∀ w drain pipe, (write drain w pipe packet).ending = .crashed ↔ crashes w
  finished : ∀ w, Reaches w₀ w → ∀ pipe : Pipe, 0 < pipe.capacity → ¬ crashes w →
    ∃ result, (write true w pipe packet).ending = .finished result

end

/-! ## The H.264 writer -/

namespace AnnexB

/-- The packet overruns its extension, or its payload is read, as the output has begun or begins
with it, and is an aggregate with an odd byte at its end. -/
def Crashes (w : AnnexB) (packet : Bytes) : Prop :=
  Overruns packet ∨ ∃ p, Packet.parse packet = .ok p ∧
    (w.started = true ∨ H264.isKeyframe p.payload = true) ∧ H264.OddAggregate p.payload

theorem crashes_iff_of_ok {w : AnnexB} {packet : Bytes} {p : Packet}
    (hparse : Packet.parse packet = .ok p) : w.Crashes packet ↔
      (w.started = true ∨ H264.isKeyframe p.payload = true) ∧ H264.OddAggregate p.payload := by
  unfold Crashes
  rw [← parse_eq_crash_iff, hparse]
  constructor
  · rintro (h | ⟨q, hq, h⟩)
    · cases h
    · cases hq
      exact h
  · intro h
    exact .inr ⟨p, rfl, h⟩

theorem not_crashes_of_error {w : AnnexB} {packet : Bytes} {e : ParseError}
    (hparse : Packet.parse packet = .error e) : ¬ w.Crashes packet := by
  unfold Crashes
  rw [← parse_eq_crash_iff, hparse]
  rintro (h | ⟨q, hq, -⟩)
  · cases h
  · cases hq

/-- What a packet comes to: it is over at once, with a chunk or without, or it crashes. -/
theorem accept_cases (w : AnnexB) (packet : Bytes) :
    (accept w packet).2 = .crash ∧ w.Crashes packet ∨
    ¬ w.Crashes packet ∧ ((∃ result, (accept w packet).2 = .finish result) ∨
      ∃ chunk result, (accept w packet).2 = .last chunk result) := by
  cases hparse : Packet.parse packet with
  | crash => exact .inl ⟨by simp [accept, hparse], .inl (parse_eq_crash_iff.1 hparse)⟩
  | error e => exact .inr ⟨not_crashes_of_error hparse, .inl ⟨_, by simp [accept, hparse]; rfl⟩⟩
  | ok p =>
    rw [crashes_iff_of_ok hparse]
    by_cases hempty : p.payload = []
    · exact .inr ⟨fun h => h.2.ne_nil hempty, .inl ⟨.ok 0, by simp [accept, hparse, hempty]⟩⟩
    · by_cases hstarted : w.started = true ∨ H264.isKeyframe p.payload = true
      · -- The payload is read, and the outcome is that of the depacketizer.
        have hgate : (!(w.started || H264.isKeyframe p.payload)) = false := by
          rcases hstarted with h | h <;> simp [h]
        have hcrash : (H264.depacketize w.fragments p.payload).2 = .crash ↔
            H264.OddAggregate p.payload := H264.depacketize_eq_crash_iff
        rw [← hcrash]
        rcases hread : H264.depacketize w.fragments p.payload with ⟨gathered, stream | e | _⟩
        · cases stream with
          | nil =>
            exact .inr ⟨by simp,
              .inl ⟨_, by simp [accept, hparse, hempty, hgate, hread]; rfl⟩⟩
          | cons b bs =>
            exact .inr ⟨by simp,
              .inr ⟨_, _, by simp [accept, hparse, hempty, hgate, hread]; exact ⟨rfl, rfl⟩⟩⟩
        · exact .inr ⟨by simp,
            .inl ⟨_, by simp [accept, hparse, hempty, hgate, hread]; rfl⟩⟩
        · exact .inl ⟨by simp [accept, hparse, hempty, hgate, hread], hstarted, rfl⟩
      · have hgate : (!(w.started || H264.isKeyframe p.payload)) = true := by simpa using hstarted
        exact .inr ⟨fun h => hstarted h.1, .inl ⟨.ok 0, by simp [accept, hparse, hempty, hgate]⟩⟩

theorem resume_ne_crash (w : AnnexB) : (PacketWriter.resume w).2 ≠ .crash :=
  Move.noConfusion

theorem returns (packet : Bytes) : Returns AnnexB.new packet fun w => w.Crashes packet where
  crashed w drain pipe := by
    rw [write_crashed_iff resume_ne_crash]
    rcases w.accept_cases packet with ⟨hmove, hcrash⟩ | ⟨hno, hmove⟩
    · exact ⟨fun _ => hcrash, fun _ => hmove⟩
    · refine ⟨fun h => ?_, fun h => absurd h hno⟩
      change (accept w packet).2 = .crash at h
      rcases hmove with ⟨result, hmove⟩ | ⟨chunk, result, hmove⟩ <;> cases hmove.symm.trans h
  finished w _ pipe hpipe hno := by
    refine writeMoves_finished moveLimit _ [] _ hpipe ?_
    change ∃ result, (collectMoves moveLimit (accept w packet).1 [] (accept w packet).2).ending = _
    rcases w.accept_cases packet with ⟨-, hcrash⟩ | ⟨-, ⟨result, hmove⟩ | ⟨chunk, result, hmove⟩⟩
    · exact absurd hcrash hno
    · exact ⟨result, by rw [hmove]; rfl⟩
    · exact ⟨.ok result, by rw [hmove]; rfl⟩

end AnnexB

/-! ## The muxers -/

namespace Muxer

variable {m : Muxer} {packet : Bytes}

theorem resume_ne_crash (m : Muxer) : m.resume.2 ≠ .crash := by
  rcases hpop : m.assembler.pop with ⟨a, _ | s⟩
  · simp only [resume, hpop]
    simp
  · cases hw : m.streamFor s.data with
    | none =>
      rw [resume_of_none hpop hw]
      simp
    | some w =>
      rw [resume_of_some hpop hw]
      simp

theorem accept_crash_iff :
    (accept m packet).2 = .crash ↔ Overruns packet := by
  unfold accept
  rw [← parse_eq_crash_iff]
  cases Packet.parse packet with
  | crash => exact ⟨fun _ => rfl, fun _ => rfl⟩
  | error e =>
    constructor
    · intro h
      cases h
    · intro h
      cases h
  | ok p =>
    constructor
    · intro h
      exact absurd h (resume_ne_crash _)
    · intro h
      cases h

/-- Between packets nothing is ready, and what is stored fits into the window. -/
theorem narrow_of_reaches {m₀ m : Muxer} (h₀ : m₀.assembler.Narrow) (h : Reaches m₀ m) :
    m.assembler.Narrow := by
  induction h with
  | start => exact h₀
  | @write m drain pipe packet hbefore hpasses ih =>
    have hwriter : (write drain m pipe packet).writer = (collect m packet).writer :=
      writeMoves_writer moveLimit _ pipe [] _ hpasses
    rw [hwriter]
    exact (collect_ends ih packet).2.2

/-- Such a muxer is done with a packet that does not crash it. -/
theorem write_returns (h : m.assembler.Narrow) {pipe : Pipe} (hpipe : 0 < pipe.capacity)
    (hno : ¬ Overruns packet) : ∃ result, (write true m pipe packet).ending = .finished result := by
  have hpasses := (collect_ends h packet).1
  refine write_finished hpipe (fun hblocked => ?_) fun pipe hcrashed => ?_
  · rw [hblocked] at hpasses
    exact hpasses
  · exact hno (accept_crash_iff.1 ((write_crashed_iff resume_ne_crash).1 hcrashed))

theorem returns {m₀ : Muxer} (h₀ : m₀.assembler.Narrow) (packet : Bytes) :
    Returns m₀ packet fun _ => Overruns packet where
  crashed m drain pipe := by
    rw [write_crashed_iff resume_ne_crash]
    exact accept_crash_iff
  finished m hreaches pipe hpipe hno := write_returns (narrow_of_reaches h₀ hreaches) hpipe hno

end Muxer

/-! ## All writers -/

/-- Each writer comes back from every packet, in every state, but for those packets on which a
reader below it crashes. -/
theorem writers_return (packet : Bytes) :
    (Returns AnnexB.new packet fun w => w.Crashes packet) ∧
    (Returns Muxer.opus packet fun _ => Overruns packet) ∧
    Returns Muxer.vp8 packet fun _ => Overruns packet :=
  ⟨AnnexB.returns packet, Muxer.returns (.new _) packet, Muxer.returns (.new _) packet⟩

/-- A packet with a sequence parameter set. -/
def openingPacket : Bytes :=
  [0x80, 0xE6, 0x00, 0x00, 0x00, 0x00, 0x0B, 0xB8, 0x12, 0x34, 0x56, 0x78, 0x67, 0x42, 0xC0, 0x1F]

/-- Once the output has begun, a packet whose header is cut short is reported. -/
theorem writers_return_in_use :
    ∃ result, (write true (write true AnnexB.new (Pipe.new 64) openingPacket).writer (Pipe.new 64)
      [0x80, 0xE6]).ending = .finished result := by
  obtain ⟨hcrashed, hfinished⟩ := (writers_return [0x80, 0xE6]).1
  have hreaches : Reaches AnnexB.new (write true AnnexB.new (Pipe.new 64) openingPacket).writer :=
    .write .start trivial
  refine hfinished _ hreaches (Pipe.new 64) (by decide) fun hcrash => ?_
  have hending := (hcrashed _ true (Pipe.new 64)).2 hcrash
  cases hending

/-- The same parameter set in an aggregate, with an odd byte behind it. -/
def oddPacket : Bytes :=
  [0x80, 0xE6, 0x00, 0x00, 0x00, 0x00, 0x0B, 0xB8, 0x12, 0x34, 0x56, 0x78, 0x78, 0x00, 0x04, 0x67,
    0x42, 0xC0, 0x1F, 0xAA]

/-- A two-byte extension of four bytes, in which an element of 200 bytes begins. -/
def overrunPacket : Bytes :=
  [0x90, 0xE6, 0x00, 0x05, 0x00, 0x00, 0x0B, 0xB8, 0x12, 0x34, 0x56, 0x78, 0x10, 0x00, 0x00, 0x01,
    0x01, 0xC8, 0x01, 0x02, 0x67, 0x42, 0xC0, 0x1F]

/-- Neither comes back from a writer that has just been made. -/
theorem writers_crash :
    (¬ ∃ result, (write true AnnexB.new (Pipe.new 64) oddPacket).ending = .finished result) ∧
    (¬ ∃ result, (write true AnnexB.new (Pipe.new 64) overrunPacket).ending = .finished result) ∧
    (¬ ∃ result, (write true Muxer.opus (Pipe.new 64) overrunPacket).ending = .finished result) ∧
    ¬ ∃ result, (write true Muxer.vp8 (Pipe.new 64) overrunPacket).ending = .finished result := by
  refine ⟨?_, ?_, ?_, ?_⟩ <;>
    · rintro ⟨result, h⟩
      cases h

end Headend.Media
