import Headend.Proofs.Media.Muxer
import Headend.Proofs.Rtp.Narrow

/-!
# Every packet comes to an end

A muxer is done with each packet after finitely many moves, and never in a way that would end the
loop around it; unless the packet crashes it, it can take the next one. None of its chunks is empty.
-/

namespace Headend.Media

open Rtp

/-- A write that is over, and not for good. -/
def Ending.Passes : Ending → Prop
  | .finished (.error e) => e.isTerminal = false
  | .finished (.ok _) => True
  | .blocked => False
  | .crashed => True

namespace Muxer

variable {m : Muxer} {a : Assembler} {ss : List Sample} {packet : Bytes}

theorem result_passes (m : Muxer) : (Ending.finished m.result).Passes := by
  unfold result
  split
  · exact rfl
  · split
    · exact rfl
    · exact trivial

/-- By induction on the samples to come: each takes one move. -/
theorem resume_ends (hdrain : Assembler.Drains m.assembler ss a) {fuel : Nat}
    (hfuel : ss.length < fuel) :
    (collectMoves fuel m.resume.1 [] m.resume.2).ending.Passes ∧
      ∀ chunk ∈ (collectMoves fuel m.resume.1 [] m.resume.2).chunks, chunk ≠ [] := by
  generalize hm : m.assembler = b at hdrain
  induction hdrain generalizing m fuel with
  | @done b a hpop =>
    cases fuel with
    | zero => exact absurd hfuel (Nat.not_lt_zero _)
    | succ fuel =>
      have hresume : m.resume =
          ({ m with assembler := a }, .finish { m with assembler := a }.result) := by
        simp only [resume, hm, hpop]
      rw [hresume]
      exact ⟨result_passes _, List.forall_mem_nil _⟩
  | @next b b' a s ss hpop hrest ih =>
    cases fuel with
    | zero => exact absurd hfuel (Nat.not_lt_zero _)
    | succ fuel =>
      have hshort : ss.length < fuel := by simpa using hfuel
      cases hstream : m.streamFor s.data with
      | none =>
        -- The sample is lost.
        rw [resume_of_none (hm ▸ hpop) hstream]
        exact ih (m := { m with assembler := b', samples := m.samples + 1 }) hshort rfl
      | some w =>
        rw [collectMoves_of_some (hm ▸ hpop) hstream]
        obtain ⟨hpasses, hchunks⟩ := ih (m := m.wrote b' w s) hshort rfl
        exact ⟨hpasses, List.forall_mem_cons.mpr ⟨w.write_ne_nil _, hchunks⟩⟩

theorem collect_of_error {e : ParseError} (hparse : Rtp.Packet.parse packet = .error e) :
    collect m packet = ⟨m, [], .finished (.error (parseError e))⟩ := by
  simp [collect, PacketWriter.accept, accept, hparse, moveLimit, collectMoves]

theorem collect_of_crash (hparse : Rtp.Packet.parse packet = .crash) :
    collect m packet = ⟨m, [], .crashed⟩ := by
  simp [collect, PacketWriter.accept, accept, hparse, moveLimit, collectMoves]

/-- What is known of a write into a muxer between two packets. -/
theorem collect_ends (h : m.assembler.Narrow) (packet : Bytes) :
    (collect m packet).ending.Passes ∧ (∀ chunk ∈ (collect m packet).chunks, chunk ≠ []) ∧
      (collect m packet).writer.assembler.Narrow := by
  cases hparse : Rtp.Packet.parse packet with
  | ok p =>
    obtain ⟨ss, a, hdrain, hnarrow, hlength⟩ := h.push p
    have hfuel : ss.length < moveLimit := Nat.lt_trans hlength (by decide)
    have hends := resume_ends
      (m := { m with assembler := m.assembler.push p, written := 0, samples := 0 }) hdrain hfuel
    have hleft := resume_le
      (m := { m with assembler := m.assembler.push p, written := 0, samples := 0 }) hdrain hfuel
    rw [← collect_eq hparse] at hends hleft
    exact ⟨hends.1, hends.2, hleft.1 ▸ hnarrow⟩
  | error e =>
    rw [collect_of_error hparse]
    exact ⟨rfl, List.forall_mem_nil _, h⟩
  | crash =>
    rw [collect_of_crash hparse]
    exact ⟨trivial, List.forall_mem_nil _, h⟩

theorem collectAll_ends (h : m.assembler.Narrow) (packets : List Bytes) :
    (collectAll m packets).1.assembler.Narrow ∧
      ∀ chunk ∈ (collectAll m packets).2, chunk ≠ [] := by
  induction packets generalizing m with
  | nil => exact ⟨h, List.forall_mem_nil _⟩
  | cons packet packets ih =>
    obtain ⟨-, hchunks, hnarrow⟩ := collect_ends h packet
    obtain ⟨hnarrow', hchunks'⟩ := ih hnarrow
    refine ⟨hnarrow', fun chunk hchunk => ?_⟩
    exact (List.mem_append.mp hchunk).elim (hchunks chunk) (hchunks' chunk)

end Muxer

end Headend.Media
