import Headend.Media.Muxer
import Headend.Proofs.Media.Feed
import Headend.Proofs.Rtp.Build

/-!
# Samples become blocks

A packet pushed into the assembler gives some samples; the muxer writes one block for each, in
order, and nothing else. What is left to say about a muxer is therefore which samples its assembler
gives.
-/

namespace Headend.WebM.BlockWriter

/-- The writer behind several blocks. -/
def advance (w : BlockWriter) : List Block → BlockWriter
  | [] => w
  | b :: bs => (w.write b).1.advance bs

@[simp] theorem advance_nil (w : BlockWriter) : w.advance [] = w := rfl

theorem writeAll_append (w : BlockWriter) (bs bs' : List Block) :
    w.writeAll (bs ++ bs') = w.writeAll bs ++ (w.advance bs).writeAll bs' := by
  induction bs generalizing w with
  | nil => rfl
  | cons b bs ih => simp [writeAll, advance, ih]

theorem advance_append (w : BlockWriter) (bs bs' : List Block) :
    w.advance (bs ++ bs') = (w.advance bs).advance bs' := by
  induction bs generalizing w with
  | nil => rfl
  | cons b bs ih => simp [advance, ih]

theorem length_writeAll (w : BlockWriter) (bs : List Block) :
    (w.writeAll bs).length = bs.length := by
  induction bs generalizing w with
  | nil => rfl
  | cons b bs ih => simp [writeAll, ih]

theorem write_ne_nil (w : BlockWriter) (b : Block) : (w.write b).2 ≠ [] := by
  simp [write, Block.encode, Ebml.binary, Ebml.Id.encode, Id.simpleBlock, toBigEndian]

end Headend.WebM.BlockWriter

namespace Headend.Media

open Rtp WebM

/-- A pipe passes every block on. -/
theorem passed_writeAll (w : BlockWriter) (bs : List Block) :
    passed (w.writeAll bs) = w.writeAll bs := by
  induction bs generalizing w with
  | nil => rfl
  | cons b bs ih =>
    have hne := w.write_ne_nil b
    have hih := ih (w.write b).1
    simp only [passed] at hih
    simp [passed, BlockWriter.writeAll, hne, hih]

namespace Muxer

variable {m : Muxer} {w : BlockWriter} {a : Assembler} {ss : List Sample} {packet : Bytes}

/-- How long several samples last. -/
def totalNanos : List Sample → Nat
  | [] => 0
  | s :: ss => s.nanos + totalNanos ss

/-- What a muxer puts out for the samples of a packet once its stream can begin. -/
structure Puts (m : Muxer) (ss : List Sample) (a : Assembler) (w : BlockWriter)
    (c : Collected Muxer) (bs : List Block) : Prop where
  data : bs.map Block.data = ss.map Sample.data
  chunks : c.chunks = w.writeAll bs
  assembler : c.writer.assembler = a
  blocks : c.writer.blocks = if ss = [] then m.blocks else some (w.advance bs)
  position : c.writer.position = m.position + totalNanos ss

theorem streamFor_of_blocks (h : m.blocks = some w) (frame : Bytes) :
    m.streamFor frame = some w := by
  simp [streamFor, h]

/-- A stream that has not begun with these samples is still to begin. -/
theorem Puts.streamFor {c : Collected Muxer} {bs : List Block} (h : Puts m ss a w c bs)
    {frame : Bytes} (hw : ss = [] → m.streamFor frame = some w) :
    c.writer.streamFor frame = some (w.advance bs) := by
  have hblocks := h.blocks
  by_cases hss : ss = []
  · subst hss
    obtain rfl : bs = [] := by simpa using h.data
    have hsame : c.writer.streamFor frame = m.streamFor frame := by
      simp [Muxer.streamFor, hblocks]
    rw [hsame]
    exact hw rfl
  · rw [if_neg hss] at hblocks
    exact streamFor_of_blocks hblocks frame

/-! ## One sample -/

/-- The block of a sample, with the assembler that the sample was popped from. -/
def blockOf (m : Muxer) (a : Assembler) (s : Sample) : Block :=
  ⟨1, { m with assembler := a }.isKeyframe s.data, blockTimestamp (m.position + s.nanos), s.data⟩

/-- The muxer once that block is written. -/
def wrote (m : Muxer) (a : Assembler) (w : BlockWriter) (s : Sample) : Muxer :=
  { m with
    assembler := a
    blocks := some (w.write (m.blockOf a s)).1
    position := m.position + s.nanos
    written := m.written + (w.write (m.blockOf a s)).2.length
    samples := m.samples + 1 }

variable {s : Sample}

theorem resume_of_none (hpop : m.assembler.pop = (a, some s)) (hw : m.streamFor s.data = none) :
    m.resume = ({ m with assembler := a, samples := m.samples + 1 }, .again) := by
  have hstream : { m with assembler := a, samples := m.samples + 1 }.streamFor s.data = none := hw
  simp only [resume, hpop, hstream]

theorem resume_of_some (hpop : m.assembler.pop = (a, some s)) (hw : m.streamFor s.data = some w) :
    m.resume = (m.wrote a w s, .emit (w.write (m.blockOf a s)).2) := by
  have hstream : { m with assembler := a, samples := m.samples + 1 }.streamFor s.data = some w := hw
  simp only [resume, hpop, hstream, wrote, blockOf]
  rfl

/-- The block comes first, and then what comes of the samples after it. -/
theorem collectMoves_of_some (hpop : m.assembler.pop = (a, some s))
    (hw : m.streamFor s.data = some w) (fuel : Nat) :
    collectMoves (fuel + 1) m.resume.1 [] m.resume.2 =
      { collectMoves fuel (m.wrote a w s).resume.1 [] (m.wrote a w s).resume.2 with
        chunks := (w.write (m.blockOf a s)).2 ::
          (collectMoves fuel (m.wrote a w s).resume.1 [] (m.wrote a w s).resume.2).chunks } := by
  rw [resume_of_some hpop hw]
  exact collectMoves_out fuel _ [(w.write (m.blockOf a s)).2] _

/-! ## One packet -/

theorem puts_resume (hdrain : Assembler.Drains m.assembler ss a) {fuel : Nat}
    (hfuel : ss.length < fuel)
    (hw : ∀ s ∈ ss.head?, m.streamFor s.data = some w) :
    ∃ bs, Puts m ss a w (collectMoves fuel m.resume.1 [] m.resume.2) bs := by
  generalize hm : m.assembler = b at hdrain
  induction hdrain generalizing m fuel w with
  | @done b a hpop =>
    cases fuel with
    | zero => exact absurd hfuel (Nat.not_lt_zero _)
    | succ fuel => exact ⟨[], rfl, by simp [resume, hm, hpop, collectMoves, BlockWriter.writeAll],
        by simp [resume, hm, hpop, collectMoves], by simp [resume, hm, hpop, collectMoves],
        by simp [resume, hm, hpop, collectMoves, totalNanos]⟩
  | @next b b' a s ss hpop hrest ih =>
    cases fuel with
    | zero => exact absurd hfuel (Nat.not_lt_zero _)
    | succ fuel =>
      have hshort : ss.length < fuel := by simpa using hfuel
      -- After the first block the stream has begun, whatever the next samples are.
      obtain ⟨bs, h⟩ := ih (m := m.wrote b' w s) (w := (w.write (m.blockOf b' s)).1) hshort
        (fun t _ => streamFor_of_blocks rfl t.data) rfl
      rw [collectMoves_of_some (hm ▸ hpop) (hw s rfl)]
      refine ⟨m.blockOf b' s :: bs, ?_, ?_, h.assembler, ?_, ?_⟩
      · rw [List.map_cons, List.map_cons, h.data]
        rfl
      · rw [BlockWriter.writeAll, h.chunks]
      · rw [h.blocks, if_neg (List.cons_ne_nil s ss)]
        by_cases hss : ss = []
        · subst hss
          obtain rfl : bs = [] := by simpa using h.data
          rfl
        · rw [if_neg hss]
          rfl
      · rw [h.position, totalNanos, ← Nat.add_assoc]
        rfl

/-- Not more than a block comes of a sample, also before the stream can begin. -/
theorem resume_le (hdrain : Assembler.Drains m.assembler ss a) {fuel : Nat}
    (hfuel : ss.length < fuel) :
    (collectMoves fuel m.resume.1 [] m.resume.2).writer.assembler = a ∧
      (collectMoves fuel m.resume.1 [] m.resume.2).chunks.length ≤ ss.length := by
  generalize hm : m.assembler = b at hdrain
  induction hdrain generalizing m fuel with
  | @done b a hpop =>
    cases fuel with
    | zero => exact absurd hfuel (Nat.not_lt_zero _)
    | succ fuel => simp [resume, hm, hpop, collectMoves]
  | @next b b' a s ss hpop hrest ih =>
    cases fuel with
    | zero => exact absurd hfuel (Nat.not_lt_zero _)
    | succ fuel =>
      have hshort : ss.length < fuel := by simpa using hfuel
      cases hstream : m.streamFor s.data with
      | none =>
        -- The sample is lost.
        rw [resume_of_none (hm ▸ hpop) hstream]
        obtain ⟨hassembler, hlen⟩ :=
          ih (m := { m with assembler := b', samples := m.samples + 1 }) hshort rfl
        refine ⟨hassembler, ?_⟩
        rw [List.length_cons]
        exact Nat.le_succ_of_le hlen
      | some w =>
        rw [collectMoves_of_some (hm ▸ hpop) hstream]
        obtain ⟨hassembler, hlen⟩ := ih (m := m.wrote b' w s) hshort rfl
        exact ⟨hassembler, Nat.succ_le_succ hlen⟩

theorem collect_eq {p : Rtp.Packet} (hparse : Rtp.Packet.parse packet = .ok p) :
    collect m packet = collectMoves moveLimit
      (resume { m with assembler := m.assembler.push p, written := 0, samples := 0 }).1 []
      (resume { m with assembler := m.assembler.push p, written := 0, samples := 0 }).2 := by
  simp only [collect, PacketWriter.accept, accept, hparse]

/-- One packet: one block for each sample that it completes. -/
theorem puts_collect {p : Rtp.Packet} (hparse : Rtp.Packet.parse packet = .ok p)
    (hdrain : Assembler.Drains (m.assembler.push p) ss a) (hfuel : ss.length < moveLimit)
    (hw : ∀ s ∈ ss.head?, m.streamFor s.data = some w) :
    ∃ bs, Puts m ss a w (collect m packet) bs := by
  obtain ⟨bs, h⟩ := puts_resume
    (m := { m with assembler := m.assembler.push p, written := 0, samples := 0 }) hdrain hfuel hw
  rw [← collect_eq hparse] at h
  exact ⟨bs, h.data, h.chunks, h.assembler, h.blocks, h.position⟩

/-- Bytes that are no packet change nothing. -/
theorem collect_of_not_ok (h : ∀ p, Rtp.Packet.parse packet ≠ .ok p) :
    (collect m packet).writer = m ∧ (collect m packet).chunks = [] := by
  cases hparse : Rtp.Packet.parse packet with
  | ok p => exact absurd hparse (h p)
  | error e => simp [collect, PacketWriter.accept, accept, hparse, moveLimit, collectMoves]
  | crash => simp [collect, PacketWriter.accept, accept, hparse, moveLimit, collectMoves]

/-! ## Streams -/

/-- A muxer has begun its stream, and what came out of it are these blocks. -/
structure Ledger (tracks : List Track) (m : Muxer) (out : List Bytes) (bs : List Block) : Prop where
  blocks : m.blocks = some ((BlockWriter.new tracks).advance bs)
  out : out = (BlockWriter.new tracks).writeAll bs

variable {tracks : List Track} {out : List Bytes} {bs : List Block}

theorem Ledger.opus : Ledger [Track.opus] Muxer.opus [] [] := ⟨rfl, rfl⟩

theorem Ledger.write {p : Rtp.Packet} (h : Ledger tracks m out bs)
    (hparse : Rtp.Packet.parse packet = .ok p) (hdrain : Assembler.Drains (m.assembler.push p) ss a)
    (hfuel : ss.length < moveLimit) :
    ∃ bs', bs'.map Block.data = ss.map Sample.data ∧ (collect m packet).writer.assembler = a ∧
      Ledger tracks (collect m packet).writer (out ++ (collect m packet).chunks) (bs ++ bs') := by
  obtain ⟨bs', hdata, hchunks, hassembler, hblocks, -⟩ := puts_collect hparse hdrain hfuel
    fun s _ => streamFor_of_blocks h.blocks s.data
  refine ⟨bs', hdata, hassembler, ?_, ?_⟩
  · rw [hblocks, BlockWriter.advance_append, h.blocks]
    by_cases hss : ss = []
    · subst hss
      have hnil : bs' = [] := by simpa using hdata
      simp [hnil]
    · rw [if_neg hss]
  · rw [hchunks, h.out, BlockWriter.writeAll_append]

end Muxer

end Headend.Media
