import Headend.Proofs.Rtp.Narrow

/-!
# What the writes yield

`yields` tells which samples each of several writes gives, by the assembler alone: all that can be
popped once the packet is pushed. The codec stays what it is.
-/

namespace Headend.Rtp

/-! ## The codec stays -/

namespace Depacketizer

def isVp8 : Depacketizer → Bool
  | opus => false
  | vp8 _ => true

theorem exists_fields {d : Depacketizer} (h : d.isVp8 = true) : ∃ fields, d = .vp8 fields := by
  cases d with
  | opus => cases h
  | vp8 fields => exact ⟨fields, rfl⟩

theorem join_isVp8 (d : Depacketizer) (ps : List Packet) (data : Bytes) :
    (d.join ps data).1.isVp8 = d.isVp8 := by
  induction ps generalizing d data with
  | nil => rfl
  | cons p ps ih =>
    have hkeep : (d.depacketize p.payload).1.isVp8 = d.isVp8 := by cases d <;> rfl
    rw [join]
    cases hpart : d.depacketize p.payload with
    | mk d' part =>
      rw [hpart] at hkeep
      cases part with
      | none => exact hkeep
      | some part => exact (ih d' (data ++ part)).trans hkeep

end Depacketizer

namespace Assembler

@[simp] theorem activate_codec (a : Assembler) : a.activate.codec = a.codec := by
  unfold activate
  split <;> rfl

@[simp] theorem extend_codec (a : Assembler) : a.extend.codec = a.codec := by
  unfold extend
  split <;> rfl

theorem take_isVp8 (a : Assembler) (first : Packet) (span : Span) :
    (a.take first span).1.codec.isVp8 = a.codec.isVp8 := by
  have hjoin := a.codec.join_isVp8 (a.slots.run span.width span.head) []
  unfold take
  cases h : a.codec.join (a.slots.run span.width span.head) [] with
  | mk codec data =>
    rw [h] at hjoin
    cases data with
    | none => simpa [h] using hjoin
    | some data => simpa [h] using hjoin

theorem build_isVp8 (a : Assembler) (purging : Bool) :
    (a.build purging).1.codec.isVp8 = a.codec.isVp8 := by
  rw [build_eq_ite]
  split
  · rw [activate_codec]
  · split
    · rw [extend_codec, activate_codec]
    · split
      · rw [extend_codec, activate_codec]
      · split
        · rw [take_isVp8, extend_codec, activate_codec]
        · simp [skip]

theorem purgeOldest_isVp8 (a : Assembler) : a.purgeOldest.codec.isVp8 = a.codec.isVp8 := by
  have hbuild := a.activate.build_isVp8 true
  rw [activate_codec] at hbuild
  rw [purgeOldest]
  dsimp only
  split
  · cases h : a.activate.build true with
    | mk b made =>
      rw [h] at hbuild
      cases made <;> exact hbuild
  · rw [dropOldest_codec, activate_codec]

theorem purge_isVp8 (fuel : Nat) (a : Assembler) :
    (purge fuel a).codec.isVp8 = a.codec.isVp8 := by
  induction fuel generalizing a with
  | zero => rfl
  | succ fuel ih =>
    rw [purge]
    split
    · rw [ih, purgeOldest_isVp8]
    · rfl

theorem push_isVp8 (a : Assembler) (p : Packet) : (a.push p).codec.isVp8 = a.codec.isVp8 := by
  rw [push, purge_isVp8, release_codec]

theorem pop_isVp8 (a : Assembler) : a.pop.1.codec.isVp8 = a.codec.isVp8 := by
  rw [← a.build_isVp8 false, pop]
  split <;> rfl

/-! ## Writes -/

/-- All samples that can be taken out. -/
def popAll : (fuel : Nat) → Assembler → List Sample × Assembler
  | 0, a => ([], a)
  | fuel + 1, a =>
    match a.pop with
    | (a, none) => ([], a)
    | (a, some s) =>
      let (ss, a) := popAll fuel a
      (s :: ss, a)

/-- The samples that one write yields. Bytes that are no packet yield none. -/
def accept (a : Assembler) (raw : Bytes) : List Sample × Assembler :=
  match Packet.parse raw with
  | .ok p => popAll 65536 (a.push p)
  | _ => ([], a)

/-- The samples that each of several writes yields. -/
def yields (a : Assembler) : List Bytes → List (List Sample)
  | [] => []
  | raw :: raws => (a.accept raw).1 :: (a.accept raw).2.yields raws

variable {a b : Assembler} {ss : List Sample} {raw : Bytes} {p : Packet}

theorem Drains.popAll_eq (h : Drains a ss b) {fuel : Nat} (hfuel : ss.length < fuel) :
    popAll fuel a = (ss, b) := by
  induction h generalizing fuel with
  | done h =>
    obtain ⟨fuel, rfl⟩ := Nat.exists_eq_succ_of_ne_zero (Nat.ne_of_gt hfuel)
    simp only [popAll, h]
  | next h hrest ih =>
    obtain ⟨fuel, rfl⟩ := Nat.exists_eq_succ_of_ne_zero (Nat.ne_of_gt (Nat.zero_lt_of_lt hfuel))
    simp only [popAll, h, ih (Nat.lt_of_succ_lt_succ hfuel)]

theorem accept_of_not_ok (h : ∀ p, Packet.parse raw ≠ .ok p) : a.accept raw = ([], a) := by
  rw [accept]
  split
  · rename_i p hp
    exact absurd hp (h p)
  · rfl

/-- A write takes out all samples there are. -/
theorem Narrow.accept_drains (h : Narrow a) (hparse : Packet.parse raw = .ok p) :
    Drains (a.push p) (a.accept raw).1 (a.accept raw).2 ∧ Narrow (a.accept raw).2 ∧
      (a.accept raw).1.length < 65536 := by
  obtain ⟨ss, b, hdrains, hnarrow, hlength⟩ := h.push p
  have haccept : a.accept raw = (ss, b) := by
    simp only [accept, hparse, hdrains.popAll_eq hlength]
  rw [haccept]
  exact ⟨hdrains, hnarrow, hlength⟩

theorem yields_take (a : Assembler) (raws : List Bytes) (k : Nat) :
    (a.yields raws).take k = a.yields (raws.take k) := by
  induction raws generalizing a k with
  | nil => rw [yields, List.take_nil, List.take_nil, yields]
  | cons raw raws ih =>
    cases k with
    | zero => rfl
    | succ k => rw [yields, List.take_succ_cons, List.take_succ_cons, yields, ih]

end Assembler

end Headend.Rtp
