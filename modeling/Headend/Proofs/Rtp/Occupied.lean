import Headend.Proofs.Rtp.Narrow
import Mathlib.Data.List.Perm.Subperm

/-!
# How many packets are stored

The slots of an assembler are a list with one entry for each number, so the entries can be counted.
Cutting samples and making room only take entries away, and all that are left bear numbers of the
stored range; between two packets that range is no longer than the window.
-/

namespace Headend.Rtp

/-! ## Entries -/

namespace Slots

variable {s s' : Slots}

/-- No number has two entries. -/
def Distinct (s : Slots) : Prop := (s.entries.map Prod.fst).Nodup

/-- What is left when some slots are freed. -/
def Within (s' s : Slots) : Prop := s'.entries.Sublist s.entries

theorem Within.refl (s : Slots) : s.Within s := List.Sublist.refl _

theorem Within.trans {s'' : Slots} (h : s''.Within s') (h' : s'.Within s) : s''.Within s :=
  List.Sublist.trans h h'

theorem erase_within (s : Slots) (n : UInt16) : (s.erase n).Within s := List.filter_sublist

theorem Distinct.of_within (h : s.Distinct) (hs : s'.Within s) : s'.Distinct :=
  List.Nodup.sublist (hs.map Prod.fst) h

theorem distinct_empty : empty.Distinct := List.nodup_nil

theorem Distinct.insert (h : s.Distinct) (n : UInt16) (p : Packet) : (s.insert n p).Distinct := by
  have hfree : n ∉ (s.erase n).entries.map Prod.fst := by
    simp [erase]
  exact List.nodup_cons.2 ⟨hfree, h.of_within (s.erase_within n)⟩

/-- An entry is found under its number. -/
theorem has_of_mem {e : UInt16 × Packet} (h : e ∈ s.entries) : s.has e.1 = true := by
  refine Option.isSome_iff_ne_none.2 fun hnone => ?_
  simpa using List.lookup_eq_none_iff.1 hnone e h

end Slots

/-! ## What the stored range says -/

namespace Stored

variable {s : Slots} {span : Span} {f t : Nat} {v : Nat → Option Packet} {n : UInt16}

theorem exists_of_has (h : Stored s span f t v) (hn : s.has n = true) :
    ∃ j, f ≤ j ∧ j < t ∧ seqAt j = n := by
  obtain ⟨j, hfj, hj, rfl⟩ := exists_seqAt n f
  refine ⟨j, hfj, Nat.lt_of_not_le fun hge => ?_, rfl⟩
  rw [Slots.has, h.get?_of_ge hge hj] at hn
  cases hn

/-- Every packet stored is in the span. -/
theorem contains_of_has (h : Stored s span f t v) (hn : s.has n = true) :
    span.contains n = true := by
  obtain ⟨j, hfj, hjt, rfl⟩ := h.exists_of_has hn
  have hshort := h.short
  rw [h.span_eq, Span.contains_between h.le hshort hfj (by omega), decide_eq_true hjt]

/-- There are no more packets than positions. -/
theorem size_le (h : Stored s span f t v) (hdistinct : s.Distinct) : s.size ≤ t - f := by
  have hnumbers : s.entries.map Prod.fst ⊆ (List.range' f (t - f)).map seqAt := by
    intro n hn
    obtain ⟨e, he, rfl⟩ := List.mem_map.1 hn
    obtain ⟨j, hfj, hjt, hj⟩ := h.exists_of_has (Slots.has_of_mem he)
    exact List.mem_map.2 ⟨j, by simp [List.mem_range'_1]; omega, hj⟩
  have hlength := (List.Nodup.subperm hdistinct hnumbers).length_le
  simpa [Slots.size] using hlength

end Stored

/-! ## Slots are only freed -/

namespace Assembler

variable {a b : Assembler} {ss : List Sample}

theorem release_within (a : Assembler) (span : Span) (within : Bool) :
    (a.release span within).slots.Within a.slots := by
  rcases a.release_eq_or span within with h | h
  · rw [h]
    exact .refl _
  · rw [h]
    exact a.slots.erase_within _

theorem take_within (a : Assembler) (first : Packet) (span : Span) :
    (a.take first span).1.slots.Within a.slots := by
  unfold take
  dsimp only
  split
  · exact .refl _
  · exact .trans (release_within _ _ _) (release_within _ _ _)

theorem skip_within (a : Assembler) (span : Span) : (a.skip span).slots.Within a.slots :=
  .trans (release_within _ _ _) (release_within _ _ _)

theorem build_within (a : Assembler) (purging : Bool) :
    (a.build purging).1.slots.Within a.slots := by
  have hactivate : a.activate.slots = a.slots := a.activate_keeps.1
  have hextend : a.activate.extend.slots = a.slots := by
    unfold extend
    split <;> exact hactivate
  rw [build_eq_ite]
  split
  · exact hactivate ▸ .refl _
  · rw [← hextend]
    generalize a.activate.extend = b
    split
    · exact .refl _
    · split
      · exact .refl _
      · split
        · exact b.take_within _ _
        · exact b.skip_within _

theorem purgeOldest_within (a : Assembler) : a.purgeOldest.slots.Within a.slots := by
  rw [purgeOldest, ← a.activate_keeps.1]
  generalize a.activate = b
  dsimp only
  split
  · have hbuild := b.build_within true
    generalize b.build true = built at hbuild ⊢
    obtain ⟨c, made⟩ := built
    cases made
    · exact .trans (c.slots.erase_within _) hbuild
    · exact hbuild
  · exact b.slots.erase_within _

theorem purge_within (fuel : Nat) (a : Assembler) : (purge fuel a).slots.Within a.slots := by
  induction fuel generalizing a with
  | zero => exact .refl _
  | succ fuel ih =>
    rw [purge]
    split
    · exact .trans (ih _) a.purgeOldest_within
    · exact .refl _

theorem pop_within (a : Assembler) : a.pop.1.slots.Within a.slots := by
  rw [pop]
  split <;> exact a.build_within false

theorem Drains.within (h : Drains a ss b) : b.slots.Within a.slots := by
  induction h with
  | @done a b h =>
    have hpop := a.pop_within
    rwa [h] at hpop
  | @next a b c s ss h hrest ih =>
    have hpop := a.pop_within
    rw [h] at hpop
    exact .trans ih hpop

theorem push_distinct (h : a.slots.Distinct) (p : Packet) : (a.push p).slots.Distinct := by
  have hstore : (a.store p).slots.Distinct := h.insert p.sequence p
  rw [push_eq]
  exact hstore.of_within (.trans (purge_within _ _) (release_within _ _ _))

/-! ## Between two packets -/

/-- What is stored between two packets: no more than fits into the window, each packet within the
stored span, and no sample. -/
structure Rested (a : Assembler) : Prop where
  few : a.slots.size ≤ depth
  inside : ∀ n, a.slots.has n = true → a.filled.contains n = true
  ready : a.ready = []

theorem Narrow.rested (h : Narrow a) (hdistinct : a.slots.Distinct) : Rested a := by
  obtain ⟨hready, f, t, v, hstored, hdepth⟩ := h
  exact ⟨Nat.le_trans (hstored.size_le hdistinct) hdepth, fun n hn => hstored.contains_of_has hn,
    hready⟩

end Assembler

end Headend.Rtp
