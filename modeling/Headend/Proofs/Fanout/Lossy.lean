import Mathlib.Data.List.Perm.Subperm
import Headend.Proofs.Fanout.Run

/-!
# Losing packets

A lossy fan-out offers each packet once and waits for no lane. So that equal packets can be told
apart, packets are named by the position at which they were read. A packet that is neither handed
over nor waiting found the queue full when it was read, or its sink is gone.
-/

namespace Headend.Media.Fanout

variable {es es' : List Event} {f f' : Fanout} {i j n : Nat} {l : Lane}

/-- As many packets as a lane holds were given to it and not yet taken by its worker. -/
def Full (i : Nat) (es : List Event) : Prop :=
  (queuedTo i es).length = (handedTo i es).length + laneDepth

/-- The packet at this position was read while the lane was full. -/
def FoundFull (i : Nat) (es : List Event) (j : Nat) : Prop :=
  ∃ before d, before ++ [.read d] <+: es ∧ (reads before).length = j ∧ Full i before

theorem FoundFull.append (h : FoundFull i es j) : FoundFull i (es ++ es') j := by
  obtain ⟨before, d, hes, hj, hfull⟩ := h
  exact ⟨before, d, hes.trans (List.prefix_append ..), hj, hfull⟩

theorem FoundFull.laneDepth_le (h : FoundFull i es j) : laneDepth ≤ (queuedTo i es).length := by
  obtain ⟨before, d, ⟨after, rfl⟩, -, hfull⟩ := h
  rw [Full] at hfull
  simp only [queuedTo_append, List.length_append]
  omega

/-- The lane was given the packets at some positions, in order, and there is a reason for each that
it was not given. -/
def Sieved (i : Nat) (es : List Event) : Prop :=
  ∃ kept : List Nat, kept.Sublist (List.range (reads es).length) ∧
    (queuedTo i es).map some = kept.map ((reads es)[·]?) ∧
    ∀ j < (reads es).length, j ∉ kept → FoundFull i es j ∨ Gone i es

theorem Sieved.quiet (h : Sieved i es) (hreads : reads es' = []) (hqueued : queuedTo i es' = []) :
    Sieved i (es ++ es') := by
  obtain ⟨kept, hkept, hmap, hwhy⟩ := h
  refine ⟨kept, by simpa [hreads] using hkept, by simpa [hreads, hqueued] using hmap, ?_⟩
  intro j hj hout
  have hj : j < (reads es).length := by simpa [hreads] using hj
  exact (hwhy j hj hout).imp FoundFull.append (gone_append.mpr ∘ .inl)

/-- The packet just read is kept, or there is a reason why not. -/
theorem Sieved.read {d : Bytes} (h : Sieved i es) (hreads : reads es' = [d])
    (hqueued : queuedTo i es' = [d] ∨
      queuedTo i es' = [] ∧ (FoundFull i (es ++ es') (reads es).length ∨ Gone i es)) :
    Sieved i (es ++ es') := by
  obtain ⟨kept, hkept, hmap, hwhy⟩ := h
  have hlt : ∀ j ∈ kept, j < (reads es).length := fun j hj => List.mem_range.mp (hkept.subset hj)
  have hhold : kept.map ((reads (es ++ es'))[·]?) = kept.map ((reads es)[·]?) := by
    refine List.map_congr_left fun j hj => ?_
    rw [reads_append, List.getElem?_append_left (hlt j hj)]
  have hlength : (reads (es ++ es')).length = (reads es).length + 1 := by simp [hreads]
  have hearlier (j : Nat) (hj : j < (reads es).length) (hout : j ∉ kept) :
      FoundFull i (es ++ es') j ∨ Gone i (es ++ es') :=
    (hwhy j hj hout).imp FoundFull.append (gone_append.mpr ∘ .inl)
  rcases hqueued with hqueued | ⟨hqueued, hreason⟩
  · refine ⟨kept ++ [(reads es).length], ?_, ?_, ?_⟩
    · rw [hlength, List.range_succ]
      exact hkept.append_right _
    · rw [List.map_append, hhold, ← hmap]
      simp [hreads, hqueued]
    · intro j hj hout
      simp only [List.mem_append, List.mem_singleton, not_or] at hout
      exact hearlier j (by omega) hout.1
  · refine ⟨kept, ?_, ?_, ?_⟩
    · rw [hlength, List.range_succ]
      exact hkept.trans (List.sublist_append_left ..)
    · rw [hhold, queuedTo_append, hqueued, List.append_nil, hmap]
    · intro j hj hout
      by_cases hlast : j = (reads es).length
      · subst hlast
        exact hreason.imp_right (gone_append.mpr ∘ .inl)
      · exact hearlier j (by omega) hout

/-! ## Runs -/

/-- A lossy fan-out never has a packet in hand. -/
theorem Run.not_offering (hrun : Run (.new false n) es f) :
    ∀ d next, f.phase ≠ .offering d next := by
  induction hrun with
  | start => simp [Fanout.new]
  | @step es es' f f' hrun hstep ih =>
    cases hstep with
    | hold hlive hreading hlossless => cases hrun.lossless.symm.trans hlossless
    | @offer d next l hlive hoffering => exact absurd hoffering (ih d next)
    | drain | offered | abort | done => simp
    | _ => exact ih
  | cancel hrun ih => exact ih

theorem Run.sieved (hrun : Run (.new false n) es f) (huncut₀ : .cancelled ∉ es) (hi : i < n) :
    Sieved i es := by
  induction hrun with
  | start => exact ⟨[], by simp [reads, queuedTo]⟩
  | @step es es' f f' hrun hstep ih =>
    have huncut : .cancelled ∉ es := fun h => huncut₀ (List.mem_append_left _ h)
    replace ih := ih huncut
    cases hstep with
    | @spread d hlive hreading hlossy =>
      have hreads : reads (.read d :: f.takers d) = [d] := by
        change d :: reads (f.takers d) = [d]
        rw [reads_takers]
      have hqueued : queuedTo i (.read d :: f.takers d) = if f.admits i then [d] else [] :=
        queuedTo_takers
      refine ih.read hreads ?_
      obtain ⟨l, hlane, hledger⟩ := hrun.history hi
      by_cases hadmits : f.admits i
      · exact .inl (by rw [hqueued, if_pos hadmits])
      · refine .inr ⟨by rw [hqueued, if_neg hadmits], ?_⟩
        by_cases hended : l.worker = .ended
        · have hclosing : f.isClosing = false := by simp [isClosing, hasReturned, hreading]
          exact .inr ((hrun.ended huncut hlane hended).resolve_right (by simp [hclosing]))
        · -- The worker lives and takes no packet, so its queue is full.
          refine .inl ⟨es, d, ?_, rfl, ?_⟩
          · simp
          · have hfull : laneDepth ≤ l.queue.length := by
              simpa [admits_eq hlane, Lane.hasEnded, Lane.isFull, hended] using hadmits
            rw [Full, hledger.live hended, List.length_append, Nat.le_antisymm hledger.room hfull]
    | hold hlive hreading hlossless => cases hrun.lossless.symm.trans hlossless
    | @offer d next l hlive hoffering => exact absurd hoffering (hrun.not_offering d next)
    | _ => exact ih.quiet rfl rfl
  | cancel hrun ih => simp at huncut₀

theorem Run.accounted (hrun : Run (.new false n) es f) (huncut : .cancelled ∉ es) (hi : i < n) :
    ∃ taken waits : List Nat,
      (taken ++ waits).Sublist (List.range (reads es).length) ∧
      (handedTo i es).map some = taken.map ((reads es)[·]?) ∧
      (f.waiting i).map some = waits.map ((reads es)[·]?) ∧
      ∀ j < (reads es).length, j ∉ taken ++ waits → FoundFull i es j ∨ Gone i es := by
  obtain ⟨l, hlane, hledger⟩ := hrun.history hi
  obtain ⟨kept, hkept, hmap, hwhy⟩ := hrun.sieved huncut hi
  have hwaiting : f.waiting i = l.queue := by simp [waiting, hlane]
  by_cases hgone : Gone i es
  · -- Nothing waits any more, and what was handed over was given first.
    obtain ⟨rest, hrest⟩ := hledger.order
    refine ⟨kept.take (handedTo i es).length, [], ?_, ?_, ?_, fun _ _ _ => .inr hgone⟩
    · rw [List.append_nil]
      exact (List.take_sublist ..).trans hkept
    · rw [List.map_take, ← hmap, ← hrest, List.map_append, List.take_left' (List.length_map ..)]
    · rw [hwaiting, (hledger.ended (hledger.dropped hgone)).1]
      rfl
  · have hqueued : queuedTo i es = handedTo i es ++ l.queue := hledger.queued_eq hgone huncut
    -- Of the packets given, the first were handed over and the others wait.
    refine ⟨kept.take (handedTo i es).length, kept.drop (handedTo i es).length, ?_, ?_, ?_, ?_⟩
    · rwa [List.take_append_drop]
    · rw [List.map_take, ← hmap, hqueued, List.map_append, List.take_left' (List.length_map ..)]
    · rw [List.map_drop, ← hmap, hqueued, List.map_append, List.drop_left' (List.length_map ..),
        hwaiting]
    · rwa [List.take_append_drop]

/-- A sink that is not gone, and whose queue was never found full, misses nothing. -/
theorem Run.handedTo_append_waiting (hrun : Run (.new false n) es f) (huncut : .cancelled ∉ es)
    (hi : i < n) (hkept : ¬ Gone i es) (hroomy : ∀ j, ¬ FoundFull i es j) :
    handedTo i es ++ f.waiting i = reads es := by
  obtain ⟨taken, waits, hsub, hhanded, hwaiting, hwhy⟩ := hrun.accounted huncut hi
  have hall : List.range (reads es).length ⊆ taken ++ waits := by
    intro j hj
    by_contra hout
    exact (hwhy j (List.mem_range.mp hj) hout).elim (hroomy j) hkept
  have hlength : (List.range (reads es).length).length ≤ (taken ++ waits).length :=
    (List.nodup_range.subperm hall).length_le
  have hrange : taken ++ waits = List.range (reads es).length := hsub.eq_of_length_le hlength
  have hmap : (List.range (reads es).length).map ((reads es)[·]?) = (reads es).map some := by
    refine List.ext_getElem? fun j => ?_
    rcases Nat.lt_or_ge j (reads es).length with h | h
    · simp [h]
    · simp [h]
  refine List.map_injective_iff.mpr (fun _ _ => Option.some.inj) ?_
  rw [List.map_append, hhanded, hwaiting, ← List.map_append, hrange, hmap]

end Headend.Media.Fanout
