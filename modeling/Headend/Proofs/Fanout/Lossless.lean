import Mathlib.Data.List.Basic
import Headend.Proofs.Fanout.Run

/-!
# Losing nothing

A lossless fan-out offers the packet in hand to one lane after another and waits for each. So the
lanes whose sinks are not gone have been given the same packets, but for the last one, which the
earlier lanes may have and the later ones not: `Level`.
-/

namespace Headend.Media.Fanout

variable {es es' : List Event} {f f' : Fanout} {i j n next : Nat} {d : Bytes} {l : Lane}

/-- The lanes before `next` were given all packets read, the others all but the last. -/
def Level (n next : Nat) (es : List Event) : Prop :=
  ∀ i < n, ¬ Gone i es → queuedTo i es = if i < next then reads es else (reads es).dropLast

theorem Level.quiet (hlevel : Level n next es) (hreads : reads es' = [])
    (hqueued : ∀ i, queuedTo i es' = []) : Level n next (es ++ es') := by
  intro i hi hkept
  have := hlevel i hi fun h => hkept (gone_append.mpr (.inl h))
  simpa [hreads, hqueued] using this

/-- The next lane is given the last packet. -/
theorem Level.give (hlevel : Level n next es) (hreads : reads es' = [])
    (hqueued : ∀ i < n, ¬ Gone i es → queuedTo i es' = if i = next then [d] else [])
    (hlast : (reads es).getLast? = some d) : Level n (next + 1) (es ++ es') := by
  intro i hi hkept
  have hkept : ¬ Gone i es := fun h => hkept (gone_append.mpr (.inl h))
  rw [queuedTo_append, reads_append, hreads, List.append_nil, hlevel i hi hkept, hqueued i hi hkept]
  by_cases h : i = next
  · subst h
    rw [if_pos rfl, if_neg (Nat.lt_irrefl i), if_pos (Nat.lt_succ_self i)]
    exact List.dropLast_append_getLast? d hlast
  · have hiff : i < next + 1 ↔ i < next := by omega
    simp only [h, hiff, if_false, List.append_nil]

/-- Of two lanes the earlier one is ahead by at most one packet, and both have a first part of what
was read. -/
theorem Level.queuedTo_le (hlevel : Level n next es) (hij : i ≤ j) (hj : j < n)
    (hi' : ¬ Gone i es) (hj' : ¬ Gone j es) :
    queuedTo i es <+: reads es ∧ queuedTo j es <+: reads es ∧
      (queuedTo j es).length ≤ (queuedTo i es).length ∧
      (queuedTo i es).length ≤ (queuedTo j es).length + 1 := by
  have hmost : (reads es).dropLast <+: reads es := List.dropLast_prefix _
  have hlength : (reads es).dropLast.length = (reads es).length - 1 := List.length_dropLast
  rw [hlevel i (Nat.lt_of_le_of_lt hij hj) hi', hlevel j hj hj']
  split
  · split
    · exact ⟨List.prefix_rfl, List.prefix_rfl, Nat.le_refl _, Nat.le_succ _⟩
    · exact ⟨List.prefix_rfl, hmost, by omega, by omega⟩
  · rw [if_neg (by omega)]
    exact ⟨hmost, hmost, Nat.le_refl _, Nat.le_succ _⟩

/-- The packet in hand, for the lanes that were not offered it yet. -/
def inHand (f : Fanout) (i : Nat) : List Bytes :=
  match f.phase with
  | .offering packet next => if i < next then [] else [packet]
  | _ => []

/-! ## Runs -/

/-- What the loop has done so far. -/
structure Progress (n : Nat) (es : List Event) (f : Fanout) (next : Nat) : Prop where
  level : Level n next es
  hand : ∀ d m, f.phase = .offering d m → m = next ∧ (reads es).getLast? = some d
  /-- Between two packets all lanes have been offered the last one. -/
  through : .cancelled ∉ es → (∀ d m, f.phase ≠ .offering d m) → n ≤ next

theorem Run.progress (hrun : Run (.new true n) es f) : ∃ next, Progress n es f next := by
  induction hrun with
  | start =>
    exact ⟨n, by simp [Level, queuedTo, reads], by simp [Fanout.new], fun _ _ => Nat.le_refl n⟩
  | @step es es' f f' hrun hstep ih =>
    obtain ⟨next, hlevel, hhand, hthrough⟩ := ih
    have huncut (h : .cancelled ∉ es ++ es') : .cancelled ∉ es :=
      fun h' => h (List.mem_append_left _ h')
    have hlength : f.lanes.length = n := by simp [hrun.length_lanes, Fanout.new]
    cases hstep with
    | spread hlive hreading hlossy => cases hrun.lossless.symm.trans hlossy
    | @hold d hlive hreading hlossless =>
      -- One more packet is read, which no lane has yet; the lanes were level before.
      have hlast : n ≤ next := hthrough (of_decide_eq_false hlive) (by simp [hreading])
      refine ⟨0, ?_, ?_, ?_⟩
      · intro i hi hkept
        have := hlevel i hi fun h => hkept (gone_append.mpr (.inl h))
        rw [if_pos (by omega)] at this
        simpa [reads, queuedTo] using this
      · rintro d m ⟨rfl, rfl⟩
        exact ⟨rfl, by simp [reads]⟩
      · intro _ hnone
        exact absurd rfl (hnone d 0)
    | @offer d m l hlive hoffering hlane hroom =>
      obtain ⟨rfl, hlast⟩ := hhand d m hoffering
      have hreads : reads (if f.admits m then [.queued m d] else []) = [] := by split <;> rfl
      refine ⟨m + 1, hlevel.give (d := d) hreads ?_ hlast, ?_, ?_⟩
      · intro i hi hkept
        by_cases h : i = m
        · subst h
          -- The worker lives, since its sink is not gone; so the packet went into its queue.
          have hended : l.worker ≠ .ended := by
            intro hended
            have hclosing : f.isClosing = false := by simp [isClosing, hasReturned, hoffering]
            have := hrun.ended (of_decide_eq_false hlive) hlane hended
            exact this.elim hkept (by simp [hclosing])
          have hadmits : f.admits i = true := by
            have hended : l.hasEnded = false := by simpa [Lane.hasEnded] using hended
            simpa [admits_eq hlane, hended] using hroom
          simp [hadmits, queuedTo]
        · split <;> simp [queuedTo, Ne.symm h]
      · rintro d' m' ⟨rfl, rfl⟩
        exact ⟨rfl, by rw [reads_append, hreads, List.append_nil, hlast]⟩
      · intro _ hnone
        exact absurd rfl (hnone d (m + 1))
    | @offered d m hoffering hlast₀ =>
      -- The loop goes on to read; only cancelled it may have left lanes out.
      obtain ⟨rfl, -⟩ := hhand d m hoffering
      refine ⟨m, hlevel.quiet rfl fun _ => rfl, by simp, fun h _ => ?_⟩
      have : f.lanes.length ≤ m := hlast₀.resolve_left fun h' => huncut h (of_decide_eq_true h')
      rwa [← hlength]
    | drain hreading =>
      refine ⟨next, hlevel.quiet rfl fun _ => rfl, by simp, fun h _ => ?_⟩
      exact hthrough (huncut h) (by simp [hreading])
    | abort hcut hdraining | done hdraining =>
      refine ⟨next, hlevel.quiet rfl fun _ => rfl, by simp, fun h _ => ?_⟩
      exact hthrough (huncut h) (by simp [hdraining])
    | _ =>
      refine ⟨next, hlevel.quiet rfl fun _ => rfl, ?_, fun h => hthrough (huncut h)⟩
      intro d m hoffering
      simpa [reads] using hhand d m hoffering
  | cancel hrun ih =>
    obtain ⟨next, hlevel, hhand, hthrough⟩ := ih
    refine ⟨next, hlevel.quiet rfl fun _ => rfl, ?_, fun h => by simp at h⟩
    intro d m hoffering
    simpa [reads] using hhand d m hoffering

/-- Not cancelled, a sink that is not gone has been handed everything but what waits in its queue or
is still to be offered to it. -/
theorem Run.handedTo_append_inHand (hrun : Run (.new true n) es f) (huncut : .cancelled ∉ es)
    (hi : i < n) (hkept : ¬ Gone i es) :
    handedTo i es ++ f.waiting i ++ f.inHand i = reads es := by
  obtain ⟨next, hlevel, hhand, hthrough⟩ := hrun.progress
  obtain ⟨l, hlane, hledger⟩ := hrun.history hi
  have hwaiting : f.waiting i = l.queue := by simp [waiting, hlane]
  rw [hwaiting, ← hledger.queued_eq hkept huncut, hlevel i hi hkept]
  have hnone (h : ∀ d m, f.phase ≠ .offering d m) : i < next :=
    Nat.lt_of_lt_of_le hi (hthrough huncut h)
  cases hphase : f.phase with
  | offering d m =>
    obtain ⟨rfl, hlast⟩ := hhand d m hphase
    rw [inHand, hphase]
    by_cases h : i < m
    · simp only [h, if_true, List.append_nil]
    · simp only [h, if_false]
      exact List.dropLast_append_getLast? d hlast
  | reading | draining | returned =>
    rw [inHand, hphase, if_pos (hnone (by simp [hphase])), List.append_nil]

end Headend.Media.Fanout
