import Headend.Proofs.Fanout.Step

/-!
# Runs of a fan-out

A run is any sequence of steps, in any order, with a cancellation at any moment or never. What holds
of each lane at every moment of a run is its `Ledger`.
-/

namespace Headend.Media

/-! ## The ledger of a lane -/

/-- A lane and what is known of it: the packets it was given and handed out so far, whether its sink
is lost, and whether the fan-out was cancelled. -/
structure Lane.Ledger (queued handed : List Bytes) (lost cut : Prop) (l : Lane) : Prop where
  order : handed <+: queued
  /-- While the worker lives, what its sink was not handed waits in the queue. -/
  live : l.worker ≠ .ended → queued = handed ++ l.queue
  room : l.queue.length ≤ laneDepth
  dropped : lost → l.worker = .ended
  /-- A worker ends with its sink, when it is cancelled, or having handed everything over. -/
  ended : l.worker = .ended → l.queue = [] ∧ (lost ∨ cut ∨ queued = handed)

namespace Lane.Ledger

variable {l l' : Lane} {Q H q h : List Bytes} {lost cut : Prop} {cancelled closing gone : Bool}

theorem new (cut : Prop) : Ledger [] [] False cut Lane.new where
  order := List.prefix_rfl
  live _ := rfl
  room := Nat.zero_le _
  dropped := False.elim
  ended h := by cases h

theorem working {q : List Bytes} {w : Worker} (hlive : w ≠ .ended) (hkept : ¬ lost)
    (hall : Q = H ++ q) (hroom : q.length ≤ laneDepth) : Ledger Q H lost cut ⟨q, w⟩ where
  order := hall ▸ List.prefix_append ..
  live _ := hall
  room := hroom
  dropped h := absurd h hkept
  ended h := absurd h hlive

theorem stopped (horder : H <+: Q) (hwhy : lost ∨ cut ∨ Q = H) :
    Ledger Q H lost cut ⟨[], .ended⟩ where
  order := horder
  live h := absurd rfl h
  room := Nat.zero_le _
  dropped _ := rfl
  ended _ := ⟨rfl, hwhy⟩

theorem step (hledger : Ledger Q H lost cut l) (hcut : cancelled = true → cut)
    (hmoves : l.Moves cancelled closing q h gone l') :
    Ledger (Q ++ q) (H ++ h) (lost ∨ gone = true) cut l' := by
  have horder : H <+: Q := hledger.order
  cases hmoves with
  | keep => simpa using hledger
  | @queue queue w d hlive hroom =>
    have hQ : Q = H ++ queue := hledger.live hlive
    have hkept : ¬ lost := fun h => hlive (hledger.dropped h)
    refine working hlive (by simpa using hkept) ?_ ?_
    · simp only [hQ, List.append_nil, List.append_assoc]
    · simpa using Nat.succ_le_of_lt hroom
  | hand p rest =>
    have hQ : Q = H ++ p :: rest := hledger.live (by simp)
    have hkept : ¬ lost := fun h => absurd (hledger.dropped h) (by simp)
    refine working (by simp) (by simpa using hkept) ?_ ?_
    · simp [hQ]
    · exact Nat.le_of_succ_le hledger.room
  | free queue p =>
    have hkept : ¬ lost := fun h => absurd (hledger.dropped h) (by simp)
    refine working (by simp) (by simpa using hkept) ?_ hledger.room
    simpa using hledger.live (by simp)
  | lose queue p =>
    rw [List.append_nil, List.append_nil]
    exact stopped horder (.inl (.inr rfl))
  | retire hshut =>
    have hQ : Q = H ++ [] := hledger.live (by simp)
    rw [List.append_nil, List.append_nil]
    exact stopped horder (.inr (.inr (by simpa using hQ)))
  | abort l hcancelled =>
    rw [List.append_nil, List.append_nil]
    exact stopped horder (.inr (.inl (hcut hcancelled)))

theorem cancel (hledger : Ledger Q H lost cut l) : Ledger Q H lost True l :=
  { hledger with ended := fun h => ⟨(hledger.ended h).1, .inr (.inl trivial)⟩ }

/-- Unless its sink is lost or the fan-out was cancelled, what a lane was given and did not hand
over waits in it. -/
theorem queued_eq (hledger : Ledger Q H lost cut l) (hkept : ¬ lost) (huncut : ¬ cut) :
    Q = H ++ l.queue := by
  by_cases h : l.worker = .ended
  · obtain ⟨hqueue, hwhy⟩ := hledger.ended h
    rw [hqueue, List.append_nil]
    exact (hwhy.resolve_left hkept).resolve_left huncut
  · exact hledger.live h

end Lane.Ledger

/-- A worker ends with its sink, at the loop's end, or when it is cancelled. -/
theorem Lane.Moves.ended {l l' : Lane} {q h : List Bytes} {cancelled closing gone : Bool}
    (hmoves : l.Moves cancelled closing q h gone l') (hended : l'.worker = .ended) :
    l.worker = .ended ∨ gone = true ∨ closing = true ∨ cancelled = true := by
  cases hmoves with
  | keep => exact .inl hended
  | queue d hlive => exact absurd hended hlive
  | hand | free => cases hended
  | lose => exact .inr (.inl rfl)
  | retire hshut => exact .inr (.inr (.inl hshut))
  | abort l hcut => exact .inr (.inr (.inr hcut))

namespace Fanout

/-! ## Runs -/

/-- The fan-out gets from `f₀` to the last state with these events. -/
inductive Run (f₀ : Fanout) : List Event → Fanout → Prop where
  | start : Run f₀ [] f₀
  | step {es es' : List Event} {f f' : Fanout} (hrun : Run f₀ es f)
      (hstep : Step (decide (.cancelled ∈ es)) f es' f') : Run f₀ (es ++ es') f'
  | cancel {es : List Event} {f : Fanout} (hrun : Run f₀ es f) : Run f₀ (es ++ [.cancelled]) f

variable {es es' : List Event} {f f₀ f' : Fanout} {i n : Nat} {l l' : Lane} {mode : Bool}

theorem Run.lossless (hrun : Run f₀ es f) : f.lossless = f₀.lossless := by
  induction hrun with
  | start => rfl
  | step hrun hstep ih => exact hstep.lossless.trans ih
  | cancel hrun ih => exact ih

theorem Run.length_lanes (hrun : Run f₀ es f) : f.lanes.length = f₀.lanes.length := by
  induction hrun with
  | start => rfl
  | step hrun hstep ih => exact hstep.length_lanes.trans ih
  | cancel hrun ih => exact ih

/-- The fan-out counts the packets it reads. -/
theorem Run.packets (hrun : Run (.new mode n) es f) : f.packets = (reads es).length := by
  induction hrun with
  | start => rfl
  | step hrun hstep ih => rw [hstep.packets, ih, reads_append, List.length_append]
  | cancel hrun ih => simpa [reads] using ih

/-- What is known of a lane after the events. -/
abbrev History (i : Nat) (es : List Event) (l : Lane) : Prop :=
  l.Ledger (queuedTo i es) (handedTo i es) (Gone i es) (.cancelled ∈ es)

theorem Run.history (hrun : Run (.new mode n) es f) (hi : i < n) :
    ∃ l, f.lanes[i]? = some l ∧ History i es l := by
  induction hrun with
  | start =>
    refine ⟨.new, by simp [Fanout.new, hi], ?_⟩
    simpa [History, Gone, queuedTo, handedTo] using Lane.Ledger.new False
  | @step es es' f f' hrun hstep ih =>
    obtain ⟨l, hlane, hledger⟩ := ih
    obtain ⟨l', hlane', hmoves⟩ := hstep.moves hlane
    have hcut : Event.cancelled ∈ es ++ es' ↔ Event.cancelled ∈ es := by
      simp [hstep.not_cancelled]
    refine ⟨l', hlane', ?_⟩
    simpa [History, hcut, gone_append] using hledger.step of_decide_eq_true hmoves
  | cancel hrun ih =>
    obtain ⟨l, hlane, hledger⟩ := ih
    refine ⟨l, hlane, ?_⟩
    simpa [History, Gone, queuedTo, handedTo] using hledger.cancel

theorem Step.isClosing {cancelled : Bool} (hstep : Step cancelled f es f')
    (hclosing : f.isClosing = true) : f'.isClosing = true := by
  cases hstep with
  | spread hlive hreading | hold hlive hreading | drain hreading =>
    simp [Fanout.isClosing, hasReturned, hreading] at hclosing
  | offer hlive hoffering | offered hoffering =>
    simp [Fanout.isClosing, hasReturned, hoffering] at hclosing
  | abort | done => rfl
  | _ => exact hclosing

/-- Unless the fan-out is cancelled, a worker that ends before the loop does ends with its sink. -/
theorem Run.ended (hrun : Run (.new mode n) es f) (huncut₀ : .cancelled ∉ es)
    (hlane : f.lanes[i]? = some l) (hended : l.worker = .ended) :
    Gone i es ∨ f.isClosing = true := by
  induction hrun generalizing l with
  | start =>
    obtain ⟨-, rfl⟩ : i < n ∧ Lane.new = l := by
      simpa [Fanout.new, List.getElem?_replicate] using hlane
    cases hended
  | @step es es' f f' hrun hstep ih =>
    have huncut : .cancelled ∉ es := fun h => huncut₀ (List.mem_append_left _ h)
    have hlt : i < f.lanes.length := hstep.length_lanes ▸ (List.getElem?_eq_some_iff.mp hlane).1
    obtain ⟨m, hm⟩ : ∃ m, f.lanes[i]? = some m := ⟨_, List.getElem?_eq_getElem hlt⟩
    obtain ⟨l', hlane', hmoves⟩ := hstep.moves hm
    obtain rfl : l' = l := Option.some.inj (hlane'.symm.trans hlane)
    have hbefore (h : m.worker = .ended) : Gone i (es ++ es') ∨ f'.isClosing = true :=
      (ih huncut hm h).imp (gone_append.mpr ∘ .inl) hstep.isClosing
    rcases hmoves.ended hended with h | h | h | h
    · exact hbefore h
    · exact .inl (gone_append.mpr (.inr (of_decide_eq_true h)))
    · exact .inr (hstep.isClosing h)
    · exact absurd (of_decide_eq_true h) huncut
  | cancel hrun ih => simp at huncut₀

/-- Once the loop has returned all workers have ended. -/
theorem Run.all_ended (hrun : Run (.new mode n) es f) (hreturned : f.phase = .returned) :
    ∀ l ∈ f.lanes, l.worker = .ended := by
  induction hrun with
  | start => cases hreturned
  | @step es es' f f' hrun hstep ih =>
    -- No worker that has ended makes a step.
    have hidle {i : Nat} {l : Lane} (hlane : f.lanes[i]? = some l) (hstill : f.phase = .returned)
        (hworking : l.worker ≠ .ended) : False :=
      hworking (ih hstill l (List.mem_of_getElem? hlane))
    cases hstep with
    | stay => exact ih hreturned
    | spread hlive hreading => cases hreading.symm.trans hreturned
    | hold | drain | offer | offered => cases hreturned
    | abort => simp [Lane.finish]
    | done hdraining hall => simpa [Lane.hasEnded] using hall
    | hand hlane | retire hlane | free hlane | fail hlane | crash hlane =>
      exact absurd (hidle hlane hreturned (by simp)) id
  | cancel hrun ih => exact ih hreturned

theorem Run.waiting_returned (hrun : Run (.new mode n) es f) (hreturned : f.phase = .returned)
    (hi : i < n) : f.waiting i = [] := by
  obtain ⟨l, hlane, hledger⟩ := hrun.history hi
  have hended := hrun.all_ended hreturned l (List.mem_of_getElem? hlane)
  simp [waiting, hlane, (hledger.ended hended).1]

end Fanout

end Headend.Media
