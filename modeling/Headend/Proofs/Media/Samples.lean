import Headend.Proofs.Media.Ending
import Headend.Proofs.Rtp.Yield

/-!
# What every sample respects

A write takes samples out of the assembler; each of them becomes a block, or is lost as long as the
stream cannot begin. What one sample respects either way holds after any writes.
-/

namespace Headend.Media.Muxer

open Rtp WebM

/-- A statement about a muxer, the samples it has got and the chunks it has put out that stays true
with each further sample, whether that is lost or written. -/
structure Respected (P : Muxer → List Sample → List Bytes → Prop) : Prop where
  /-- What is counted for the packet in hand does not matter, nor what waits in the assembler. -/
  congr : ∀ {m n : Muxer} {seen out}, P m seen out →
    n.assembler.codec.isVp8 = m.assembler.codec.isVp8 → n.blocks = m.blocks →
    n.position = m.position → P n seen out
  lose : ∀ {m : Muxer} {s seen out}, P m seen out → m.streamFor s.data = none →
    P m (seen ++ [s]) out
  take : ∀ {m : Muxer} {a s w seen out}, P m seen out →
    a.codec.isVp8 = m.assembler.codec.isVp8 → m.streamFor s.data = some w →
    P (m.wrote a w s) (seen ++ [s]) (out ++ [(w.write (m.blockOf a s)).2])

namespace Respected

variable {P : Muxer → List Sample → List Bytes → Prop} {m : Muxer} {a : Assembler}
  {seen ss : List Sample} {out : List Bytes}

/-- By induction on the samples to come. -/
theorem resume (h : Respected P) (hm : P m seen out) (hdrain : Assembler.Drains m.assembler ss a)
    {fuel : Nat} (hfuel : ss.length < fuel) :
    P (collectMoves fuel m.resume.1 [] m.resume.2).writer (seen ++ ss)
        (out ++ (collectMoves fuel m.resume.1 [] m.resume.2).chunks) ∧
      (collectMoves fuel m.resume.1 [] m.resume.2).ending =
        .finished (collectMoves fuel m.resume.1 [] m.resume.2).writer.result := by
  generalize hb : m.assembler = b at hdrain
  induction hdrain generalizing m fuel seen out with
  | @done b a hpop =>
    obtain ⟨fuel, rfl⟩ := Nat.exists_eq_succ_of_ne_zero (Nat.ne_of_gt hfuel)
    have hresume : m.resume =
        ({ m with assembler := a }, .finish { m with assembler := a }.result) := by
      simp only [Muxer.resume, hb, hpop]
    have hcodec := m.assembler.pop_isVp8
    rw [hb, hpop, ← hb] at hcodec
    rw [hresume]
    change P _ (seen ++ []) (out ++ []) ∧ _
    rw [List.append_nil, List.append_nil]
    exact ⟨h.congr hm hcodec rfl rfl, rfl⟩
  | @next b b' a s ss hpop hrest ih =>
    obtain ⟨fuel, rfl⟩ := Nat.exists_eq_succ_of_ne_zero (Nat.ne_of_gt (Nat.zero_lt_of_lt hfuel))
    have hshort : ss.length < fuel := Nat.lt_of_succ_lt_succ hfuel
    have hcodec := m.assembler.pop_isVp8
    rw [hb, hpop, ← hb] at hcodec
    cases hstream : m.streamFor s.data with
    | none =>
      have hlost := h.congr (n := { m with assembler := b', samples := m.samples + 1 })
        (h.lose hm hstream) hcodec rfl rfl
      obtain ⟨hkept, hending⟩ := ih hlost hshort rfl
      rw [resume_of_none (hb ▸ hpop) hstream]
      rw [List.append_assoc] at hkept
      exact ⟨hkept, hending⟩
    | some w =>
      obtain ⟨hkept, hending⟩ := ih (h.take hm hcodec hstream) hshort rfl
      rw [collectMoves_of_some (hb ▸ hpop) hstream]
      rw [List.append_assoc, List.append_assoc] at hkept
      exact ⟨hkept, hending⟩

/-- One write: the samples it yields come to those seen. -/
theorem collect (h : Respected P) (hm : P m seen out) (hnarrow : m.assembler.Narrow)
    (raw : Bytes) :
    P (collect m raw).writer (seen ++ (m.assembler.accept raw).1)
        (out ++ (Media.collect m raw).chunks) ∧
      (Media.collect m raw).writer.assembler = (m.assembler.accept raw).2 ∧
      ∀ p, Packet.parse raw = .ok p →
        (Media.collect m raw).ending = .finished (Media.collect m raw).writer.result := by
  by_cases hok : ∃ p, Packet.parse raw = .ok p
  · obtain ⟨p, hparse⟩ := hok
    obtain ⟨hdrains, -, hlength⟩ := hnarrow.accept_drains hparse
    have hfuel : (m.assembler.accept raw).1.length < moveLimit :=
      Nat.lt_trans hlength (by decide)
    have hpushed := h.congr
      (n := { m with assembler := m.assembler.push p, written := 0, samples := 0 }) hm
      (m.assembler.push_isVp8 p) rfl rfl
    have hwrite := h.resume hpushed hdrains hfuel
    have hleft := resume_le
      (m := { m with assembler := m.assembler.push p, written := 0, samples := 0 }) hdrains hfuel
    rw [← collect_eq hparse] at hwrite hleft
    exact ⟨hwrite.1, hleft.1, fun _ _ => hwrite.2⟩
  · have hne : ∀ p, Packet.parse raw ≠ .ok p := fun p hp => hok ⟨p, hp⟩
    obtain ⟨hwriter, hchunks⟩ := collect_of_not_ok (m := m) hne
    rw [hwriter, hchunks, Assembler.accept_of_not_ok hne, List.append_nil, List.append_nil]
    exact ⟨hm, rfl, fun p hp => absurd hp (hne p)⟩

/-- By induction on the writes. -/
theorem collectAll (h : Respected P) (hm : P m seen out) (hnarrow : m.assembler.Narrow)
    (raws : List Bytes) :
    P (collectAll m raws).1 (seen ++ (m.assembler.yields raws).flatten)
      (out ++ (Media.collectAll m raws).2) := by
  induction raws generalizing m seen out with
  | nil =>
    change P m (seen ++ []) (out ++ [])
    rwa [List.append_nil, List.append_nil]
  | cons raw raws ih =>
    obtain ⟨hwrite, hassembler, -⟩ := h.collect hm hnarrow raw
    have hrest := ih hwrite (collect_ends hnarrow raw).2.2
    rw [hassembler, List.append_assoc, List.append_assoc] at hrest
    exact hrest

end Respected

end Headend.Media.Muxer
