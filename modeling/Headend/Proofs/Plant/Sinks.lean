import Headend.Proofs.Media.Sink
import Headend.Proofs.Plant.Fan

/-!
# The sinks behind a fan-out

What the steps of a fan-out do to its sinks: the step of a lane moves its own sink and no other, a
sink keeps its target, and a sink that has a packet has a move to make.
-/

namespace Headend.Plant.Fan

open Media Media.Fanout

variable {f f' f₀ : Fan} {es : List Event} {i k : Nat} {pipes pipes' : Pipes} {cancelled : Bool}

/-! ## What a step leaves alone -/

theorem give_worker (l : Lane) (d : Bytes) : (l.give d).worker = l.worker := by
  unfold Lane.give
  split <;> rfl

theorem worker_map {c : Fanout} {g : Lane → Lane} (hg : ∀ l, (g l).worker = l.worker) (k : Nat) :
    { c with lanes := c.lanes.map g }.worker k = c.worker k := by
  simp only [worker, List.getElem?_map]
  cases c.lanes[k]? with
  | none => rfl
  | some l => exact hg l

theorem read_worker {c c' : Fanout} {r : Reading} (hstep : c.read r = some c') (k : Nat) :
    c'.worker k = c.worker k := by
  unfold Fanout.read at hstep
  split at hstep
  · cases hstep
  · cases r with
    | packet d =>
      obtain rfl : c.packet d = c' := Option.some.inj hstep
      unfold Fanout.packet
      split
      · rfl
      · exact worker_map (c := c) (give_worker · d) k
    | failed e =>
      dsimp only at hstep
      split at hstep <;> cases hstep <;> rfl

theorem offer_worker {c c' : Fanout} (hstep : c.offer cancelled = some c') (k : Nat) :
    c'.worker k = c.worker k := by
  rw [Fanout.offer] at hstep
  split at hstep
  · rename_i d next hphase
    split at hstep
    · cases hstep
      rfl
    · split at hstep
      · cases hstep
        rfl
      · rename_i l hlane
        split at hstep
        · cases hstep
        · cases hstep
          by_cases h : k = next
          · subst h
            have hworker : (c.setLane k (l.give d)).worker k = (l.give d).worker :=
              worker_setLane hlane
            rw [give_worker, ← worker_eq hlane] at hworker
            exact hworker
          · simp [worker, Ne.symm h]
  · cases hstep

/-- The loop ends a worker only when it is cancelled. -/
theorem LoopStep.worker (hstep : LoopStep cancelled f pipes es f' pipes') (k : Nat) :
    f'.core.worker k = f.core.worker k ∨ cancelled = true ∧ f'.core.worker k = .ended := by
  cases hstep with
  | interrupt => exact .inl rfl
  | read hlive hanswer hstep => exact .inl (read_worker hstep k)
  | offer hoffering hstep => exact .inl (offer_worker hstep k)
  | close hstep =>
    rw [Fanout.close] at hstep
    split at hstep
    · cases hstep
    · split at hstep
      · rename_i hcut
        cases hstep
        refine .inr ⟨hcut, ?_⟩
        simp only [Fanout.worker, List.getElem?_map]
        cases f.core.lanes[k]? <;> rfl
      · split at hstep
        · cases hstep
          exact .inl rfl
        · cases hstep

/-- The loop hands nothing over. -/
theorem LoopStep.unseen (hstep : LoopStep cancelled f pipes es f' pipes') (k : Nat) :
    handedTo k es = [] ∧ .failed k ∉ es ∧ .crashed k ∉ es := by
  cases hstep with
  | interrupt | close => exact ⟨rfl, List.not_mem_nil, List.not_mem_nil⟩
  | @read r source rest core hlive hanswer hstep =>
    cases r with
    | failed e => exact ⟨rfl, List.not_mem_nil, List.not_mem_nil⟩
    | packet d =>
      rw [shows]
      split
      · exact ⟨rfl, by simp, by simp⟩
      · refine ⟨handedTo_takers, ?_, ?_⟩ <;> simp [takers]
  | offer =>
    split
    · exact ⟨rfl, by simp, by simp⟩
    · exact ⟨rfl, List.not_mem_nil, List.not_mem_nil⟩

/-- A lane shows nothing of another one, and leaves it as it is. -/
theorem LaneStep.apart (hstep : LaneStep f i pipes es f' pipes') (hne : k ≠ i) :
    f'.core.worker k = f.core.worker k ∧ f'.sinks[k]? = f.sinks[k]? ∧
      handedTo k es = [] ∧ .failed k ∉ es ∧ .crashed k ∉ es := by
  have hcore (l : Lane) : (f.core.setLane i l).worker k = f.core.worker k := by
    simp [worker, setLane, Ne.symm hne]
  have hsinks (s : Sink) : (f.sinks.set i s)[k]? = f.sinks[k]? := by simp [Ne.symm hne]
  cases hstep with
  | hand => exact ⟨hcore _, hsinks _, by simp [handedTo, Ne.symm hne], by simp, by simp⟩
  | retire => exact ⟨hcore _, hsinks _, rfl, by simp, by simp⟩
  | work => exact ⟨rfl, hsinks _, rfl, by simp, by simp⟩
  | free => exact ⟨hcore _, hsinks _, rfl, by simp, by simp⟩
  | fail => exact ⟨hcore _, hsinks _, rfl, by simp [hne], by simp⟩
  | crash => exact ⟨hcore _, hsinks _, rfl, by simp, by simp [hne]⟩

/-! ## Targets -/

/-- To replace an element by one that looks the same changes no element's looks. -/
theorem map_set_of_eq {α β : Type} {l : List α} {k : Nat} {a b : α} {g : α → β}
    (hfound : l[k]? = some a) (hsame : g b = g a) : (l.set k b).map g = l.map g := by
  obtain ⟨hbound, rfl⟩ := List.getElem?_eq_some_iff.mp hfound
  rw [List.map_set, hsame, ← List.getElem_map g (h := by rwa [List.length_map])]
  exact List.set_getElem_self _

/-- The sinks keep their targets. -/
theorem LaneStep.targets (hstep : LaneStep f i pipes es f' pipes') :
    f'.sinks.map Sink.target = f.sinks.map Sink.target := by
  cases hstep with
  | hand hsinks => exact map_set_of_eq hsinks rfl
  | retire hsinks => exact map_set_of_eq hsinks rfl
  | work hsinks hlane hadvance => exact map_set_of_eq hsinks (Sink.advance_target hadvance)
  | free hsinks hlane hadvance => exact map_set_of_eq hsinks (Sink.advance_target hadvance)
  | fail hsinks hlane hadvance => exact map_set_of_eq hsinks (Sink.advance_target hadvance)
  | crash hsinks hlane hadvance => exact map_set_of_eq hsinks (Sink.advance_target hadvance)

/-- A lane whose sink has no target touches no pipe. -/
theorem LaneStep.pipes_eq {s : Sink} (hstep : LaneStep f i pipes es f' pipes')
    (hsinks : f.sinks[i]? = some s) (htarget : s.target = none) : pipes' = pipes := by
  have hdrop {s : Sink} {ps : Pipes} (htarget : s.target = none) : s.drop ps = ps := by
    rw [Sink.drop, htarget]
  have hown {sink : Sink} (hown₀ : f.sinks[i]? = some sink) : sink.target = none := by
    obtain rfl := Option.some.inj (hown₀.symm.trans hsinks)
    exact htarget
  cases hstep with
  | hand => rfl
  | retire hown₀ => exact hdrop (hown hown₀)
  | work hown₀ hlane hadvance => exact Sink.advance_pipes (hown hown₀) hadvance
  | free hown₀ hlane hadvance => exact Sink.advance_pipes (hown hown₀) hadvance
  | fail hown₀ hlane hadvance =>
    rw [hdrop ((Sink.advance_target hadvance).trans (hown hown₀))]
    exact Sink.advance_pipes (hown hown₀) hadvance
  | crash hown₀ hlane hadvance =>
    rw [hdrop ((Sink.advance_target hadvance).trans (hown hown₀))]
    exact Sink.advance_pipes (hown hown₀) hadvance

/-! ## Runs -/

theorem Run.targets (hrun : Run f₀ es f) :
    f.sinks.map Sink.target = f₀.sinks.map Sink.target := by
  induction hrun with
  | start => rfl
  | loop hrun hstep ih => exact (congrArg _ (loop_cases hstep).sinks).trans ih
  | lane i hrun hstep ih => exact (lane_cases hstep).targets.trans ih
  | cancel hrun ih => exact ih

theorem LoopStep.token (hstep : LoopStep cancelled f pipes es f' pipes') : f'.token = f.token := by
  cases hstep <;> rfl

theorem LaneStep.token (hstep : LaneStep f i pipes es f' pipes') : f'.token = f.token := by
  cases hstep <;> rfl

theorem Run.token (hrun : Run f₀ es f) : f.token = f₀.token := by
  induction hrun with
  | start => rfl
  | loop hrun hstep ih => exact (loop_cases hstep).token.trans ih
  | lane i hrun hstep ih => exact (lane_cases hstep).token.trans ih
  | cancel hrun ih => exact ih

/-- Only a sink that has a move to make is left to a worker with a packet. -/
theorem LaneStep.moving {p : Bytes} {s : Sink} (hstep : LaneStep f i pipes es f' pipes')
    (hwriting : f'.core.worker i = .writing p) (hsink : f'.sinks[i]? = some s) : s.move ≠ none := by
  have hset {s₀ next : Sink} (hown : f.sinks[i]? = some s₀)
      (hsink : (f.sinks.set i next)[i]? = some s) : next = s := by
    simpa [(List.getElem?_eq_some_iff.mp hown).1] using hsink
  have hended {l : Lane} {q : List Bytes} {w : Worker} (hlane : f.core.lanes[i]? = some l)
      (hwriting : (f.core.setLane i ⟨q, w⟩).worker i = .writing p) : w = .writing p :=
    (worker_setLane hlane).symm.trans hwriting
  cases hstep with
  | @hand p rest s₀ hown hlane =>
    obtain rfl := hset hown hsink
    simp [Sink.start]
  | retire hown hlane => cases hended hlane hwriting
  | work hown hlane hadvance =>
    obtain rfl := hset hown hsink
    exact Sink.move_of_working hadvance
  | free hown hlane => cases hended hlane hwriting
  | fail hown hlane => cases hended hlane hwriting
  | crash hown hlane => cases hended hlane hwriting

/-- A worker that has a packet has a sink with a move to make. -/
theorem Run.moving {token : Nat} {source : Source} {mode : Bool} {sinks : List Sink}
    (hrun : Run (.new token source mode sinks) es f) {p : Bytes} {s : Sink}
    (hwriting : f.core.worker i = .writing p) (hsink : f.sinks[i]? = some s) : s.move ≠ none := by
  induction hrun generalizing p s with
  | start =>
    simp only [Fan.new, Fanout.new, worker, List.getElem?_replicate] at hwriting
    split at hwriting <;> cases hwriting
  | @loop es f f' pipes pipes' hrun hstep₀ ih =>
    -- The loop moves no sink and gives no worker a packet.
    have hstep := loop_cases hstep₀
    rw [hstep.sinks] at hsink
    rcases hstep.worker i with h | ⟨-, h⟩
    · exact ih (h ▸ hwriting) hsink
    · cases h.symm.trans hwriting
  | @lane es f f' pipes pipes' j hrun hstep₀ ih =>
    have hstep := lane_cases hstep₀
    by_cases hij : i = j
    · subst hij
      exact hstep.moving hwriting hsink
    · obtain ⟨hworker, hsinks, -⟩ := hstep.apart hij
      exact ih (hworker ▸ hwriting) (hsinks ▸ hsink)
  | cancel hrun ih => exact ih hwriting hsink

end Headend.Plant.Fan
