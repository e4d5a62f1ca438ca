import Headend.Media.Fanout

/-!
# Steps of a fan-out

What can happen to a fan-out, step by step, and what an observer sees of it. `Step` has one rule for
each thing that the loop or a worker can do; `Lane.Moves` is what such a step means for a single
lane.
-/

namespace Headend.Media

namespace Lane

variable {l : Lane} {d : Bytes}

theorem give_of_room (hlive₀ : l.worker ≠ .ended) (hroom₀ : l.queue.length < laneDepth) :
    l.give d = { l with queue := l.queue ++ [d] } := by
  have hlive : l.hasEnded = false := by simpa [hasEnded] using hlive₀
  have hroom : l.isFull = false := by simpa [isFull] using hroom₀
  simp [give, hlive, hroom]

theorem give_of_refused (h : (l.hasEnded || l.isFull) = true) : l.give d = l := by
  simp only [give, h, if_true]

/-- What a step means for a lane: the packets it queues and hands out, and whether its sink is lost
with it. -/
inductive Moves (cancelled closing : Bool) :
    (queued handed : List Bytes) → (lost : Bool) → Lane → Lane → Prop where
  | keep (l : Lane) : Moves cancelled closing [] [] false l l
  | queue {q : List Bytes} {w : Worker} (d : Bytes) (hlive : w ≠ .ended)
      (hroom : q.length < laneDepth) : Moves cancelled closing [d] [] false ⟨q, w⟩ ⟨q ++ [d], w⟩
  | hand (p : Bytes) (rest : List Bytes) :
      Moves cancelled closing [] [p] false ⟨p :: rest, .idle⟩ ⟨rest, .writing p⟩
  | free (q : List Bytes) (p : Bytes) :
      Moves cancelled closing [] [] false ⟨q, .writing p⟩ ⟨q, .idle⟩
  | lose (q : List Bytes) (p : Bytes) :
      Moves cancelled closing [] [] true ⟨q, .writing p⟩ ⟨[], .ended⟩
  | retire (hshut : closing = true) : Moves cancelled closing [] [] false ⟨[], .idle⟩ ⟨[], .ended⟩
  | abort (l : Lane) (hcut : cancelled = true) : Moves cancelled closing [] [] false l ⟨[], .ended⟩

/-- A lane that is given a packet queues it, or stays as it is. -/
theorem give_moves (cancelled closing : Bool) (l : Lane) (d : Bytes) :
    Moves cancelled closing (if l.hasEnded || l.isFull then [] else [d]) [] false l (l.give d) := by
  cases h : l.hasEnded || l.isFull with
  | true =>
    rw [give_of_refused h]
    exact .keep l
  | false =>
    obtain ⟨hlive, hroom⟩ := Bool.or_eq_false_iff.mp h
    have hlive : l.worker ≠ .ended := by simpa [hasEnded] using hlive
    have hroom : l.queue.length < laneDepth := by simpa [isFull] using hroom
    rw [give_of_room hlive hroom]
    exact .queue d hlive hroom

end Lane

namespace Fanout

inductive Event where
  | read (packet : Bytes)
  /-- The packet was put into the queue of a lane. -/
  | queued (i : Nat) (packet : Bytes)
  /-- The sink behind a lane was handed the packet. -/
  | handed (i : Nat) (packet : Bytes)
  /-- The sink met a terminal error. -/
  | failed (i : Nat)
  | crashed (i : Nat)
  | cancelled
  deriving Repr, DecidableEq

/-! ## What an observer sees -/

variable {es es' : List Event} {i j : Nat} {d : Bytes}

/-- The packets read. -/
def reads (es : List Event) : List Bytes :=
  es.filterMap fun
    | .read packet => some packet
    | _ => none

def queuedTo (i : Nat) (es : List Event) : List Bytes :=
  es.filterMap fun
    | .queued j packet => if j = i then some packet else none
    | _ => none

def handedTo (i : Nat) (es : List Event) : List Bytes :=
  es.filterMap fun
    | .handed j packet => if j = i then some packet else none
    | _ => none

/-- The sink takes no more packets, for it failed with a terminal error or crashed. -/
def Gone (i : Nat) (es : List Event) : Prop := .failed i ∈ es ∨ .crashed i ∈ es

instance : Decidable (Gone i es) := inferInstanceAs (Decidable (_ ∨ _))

@[simp] theorem reads_append : reads (es ++ es') = reads es ++ reads es' := List.filterMap_append

@[simp] theorem queuedTo_append : queuedTo i (es ++ es') = queuedTo i es ++ queuedTo i es' :=
  List.filterMap_append

@[simp] theorem handedTo_append : handedTo i (es ++ es') = handedTo i es ++ handedTo i es' :=
  List.filterMap_append

@[simp] theorem gone_append : Gone i (es ++ es') ↔ Gone i es ∨ Gone i es' := by
  simp only [Gone, List.mem_append]
  exact or_or_or_comm

/-! ## Steps -/

/-- Whether the lane takes one more packet. -/
def admits (f : Fanout) (i : Nat) : Bool := f.lanes[i]?.any fun l => !(l.hasEnded || l.isFull)

/-- The lanes that get a packet which all are offered at once. -/
def takers (f : Fanout) (packet : Bytes) : List Event :=
  ((List.range f.lanes.length).filter f.admits).map (.queued · packet)

def setLane (f : Fanout) (i : Nat) (l : Lane) : Fanout := { f with lanes := f.lanes.set i l }

/-- The packets that wait in a lane. -/
def waiting (f : Fanout) (i : Nat) : List Bytes := f.lanes[i]?.elim [] Lane.queue

inductive Step (cancelled : Bool) (f : Fanout) : List Event → Fanout → Prop where
  /-- Nothing to be seen: a read that gave no packet, or a sink at work. -/
  | stay : Step cancelled f [] f
  | spread {d : Bytes} (hlive : cancelled = false) (hreading : f.phase = .reading)
      (hlossy : f.lossless = false) : Step cancelled f (.read d :: f.takers d)
        { f with packets := f.packets + 1, lanes := f.lanes.map (·.give d) }
  | hold {d : Bytes} (hlive : cancelled = false) (hreading : f.phase = .reading)
      (hlossless : f.lossless = true) : Step cancelled f [.read d]
        { f with phase := .offering d 0, packets := f.packets + 1 }
  /-- The source has ended, or the loop is cancelled. -/
  | drain (hreading : f.phase = .reading) : Step cancelled f [] { f with phase := .draining }
  | offer {d : Bytes} {next : Nat} {l : Lane} (hlive : cancelled = false)
      (hoffering : f.phase = .offering d next) (hlane : f.lanes[next]? = some l)
      (hroom : l.hasEnded = true ∨ l.isFull = false) :
      Step cancelled f (if f.admits next then [.queued next d] else [])
        { f.setLane next (l.give d) with phase := .offering d (next + 1) }
  | offered {d : Bytes} {next : Nat} (hoffering : f.phase = .offering d next)
      (hlast : cancelled = true ∨ f.lanes.length ≤ next) :
      Step cancelled f [] { f with phase := .reading }
  /-- Cancelled, the loop takes its workers with it. -/
  | abort (hcut : cancelled = true) (hdraining : f.phase = .draining) :
      Step cancelled f [] { f with phase := .returned, lanes := f.lanes.map Lane.finish }
  | done (hdraining : f.phase = .draining) (hall : ∀ l ∈ f.lanes, l.hasEnded = true) :
      Step cancelled f [] { f with phase := .returned }
  | hand {i : Nat} {p : Bytes} {rest : List Bytes} (hlane : f.lanes[i]? = some ⟨p :: rest, .idle⟩) :
      Step cancelled f [.handed i p] (f.setLane i ⟨rest, .writing p⟩)
  | retire {i : Nat} (hlane : f.lanes[i]? = some ⟨[], .idle⟩) (hclosing : f.isClosing = true) :
      Step cancelled f [] (f.setLane i ⟨[], .ended⟩)
  | free {i : Nat} {p : Bytes} {queue : List Bytes}
      (hlane : f.lanes[i]? = some ⟨queue, .writing p⟩) :
      Step cancelled f [] (f.setLane i ⟨queue, .idle⟩)
  | fail {i : Nat} {p : Bytes} {queue : List Bytes}
      (hlane : f.lanes[i]? = some ⟨queue, .writing p⟩) :
      Step cancelled f [.failed i] (f.setLane i ⟨[], .ended⟩)
  | crash {i : Nat} {p : Bytes} {queue : List Bytes}
      (hlane : f.lanes[i]? = some ⟨queue, .writing p⟩) :
      Step cancelled f [.crashed i] (f.setLane i ⟨[], .ended⟩)

/-! ## What a step means for a lane -/

variable {cancelled : Bool} {f f' : Fanout} {l l' : Lane}

theorem admits_eq (hlane : f.lanes[i]? = some l) : f.admits i = !(l.hasEnded || l.isFull) := by
  simp [admits, hlane]

theorem worker_eq (hlane : f.lanes[i]? = some l) : f.worker i = l.worker := by
  simp [worker, hlane]

theorem worker_setLane (hlane : f.lanes[i]? = some l) : (f.setLane i l').worker i = l'.worker := by
  simp [worker, setLane, (List.getElem?_eq_some_iff.mp hlane).1]

theorem reads_takers : reads (f.takers d) = [] := by
  apply List.filterMap_eq_nil_iff.mpr
  intro e he
  obtain ⟨j, -, rfl⟩ := List.mem_map.mp he
  rfl

theorem handedTo_takers : handedTo i (f.takers d) = [] := by
  apply List.filterMap_eq_nil_iff.mpr
  intro e he
  obtain ⟨j, -, rfl⟩ := List.mem_map.mp he
  rfl

theorem not_gone_takers : ¬ Gone i (f.takers d) := by
  simp [Gone, takers]

theorem queuedTo_takers : queuedTo i (f.takers d) = if f.admits i then [d] else [] := by
  -- By induction on the number of lanes: each shows an event of its own and no other.
  have hone (n : Nat) : queuedTo i (((List.range n).filter f.admits).map (.queued · d)) =
      if i < n ∧ f.admits i then [d] else [] := by
    induction n with
    | zero => simp [queuedTo]
    | succ n ih =>
      rw [List.range_succ, List.filter_append, List.map_append, queuedTo_append, ih]
      rcases Nat.lt_trichotomy i n with h | rfl | h
      · have hne : n ≠ i := Nat.ne_of_gt h
        cases hn : f.admits n <;> simp [queuedTo, hn, h, hne, Nat.lt_succ_of_lt h]
      · cases hn : f.admits i <;> simp [queuedTo, hn]
      · have hne : n ≠ i := Nat.ne_of_lt h
        cases hn : f.admits n <;> simp [queuedTo, hn, Nat.not_lt_of_gt h, hne, Nat.not_lt_of_le h]
  rw [takers, hone]
  cases hi : f.lanes[i]? with
  | none => simp [admits, hi]
  | some l => simp [(List.getElem?_eq_some_iff.mp hi).1]

/-- A step of one lane leaves the others alone. -/
theorem moves_setLane {closing : Bool} {m m' : Lane} (hstep : f.lanes[j]? = some m)
    (hlane : f.lanes[i]? = some l)
    (hown : m.Moves cancelled closing (queuedTo j es) (handedTo j es) (decide (Gone j es)) m')
    (hapart : i ≠ j → queuedTo i es = [] ∧ handedTo i es = [] ∧ ¬ Gone i es) :
    ∃ l', (f.setLane j m').lanes[i]? = some l' ∧
      l.Moves cancelled closing (queuedTo i es) (handedTo i es) (decide (Gone i es)) l' := by
  by_cases h : i = j
  · subst h
    obtain rfl : m = l := Option.some.inj (hstep.symm.trans hlane)
    exact ⟨m', by simp [setLane, (List.getElem?_eq_some_iff.mp hlane).1], hown⟩
  · obtain ⟨hqueued, hhanded, hgone⟩ := hapart h
    refine ⟨l, by simpa [setLane, Ne.symm h] using hlane, ?_⟩
    rw [hqueued, hhanded, decide_eq_false hgone]
    exact .keep l

theorem Step.moves (hstep : Step cancelled f es f') (hlane : f.lanes[i]? = some l) :
    ∃ l', f'.lanes[i]? = some l' ∧
      l.Moves cancelled f.isClosing (queuedTo i es) (handedTo i es) (decide (Gone i es)) l' := by
  cases hstep with
  | stay | hold | drain | offered | done => exact ⟨l, hlane, .keep l⟩
  | @spread d hlive hreading hlossy =>
    refine ⟨l.give d, by simp [hlane], ?_⟩
    have hqueued : queuedTo i (.read d :: f.takers d) =
        if l.hasEnded || l.isFull then [] else [d] := by
      change queuedTo i (f.takers d) = _
      rw [queuedTo_takers, admits_eq hlane]
      cases l.hasEnded || l.isFull <;> rfl
    have hhanded : handedTo i (.read d :: f.takers d) = [] := handedTo_takers
    have hgone : ¬ Gone i (.read d :: f.takers d) := by simpa [Gone] using not_gone_takers
    rw [hqueued, hhanded, decide_eq_false hgone]
    exact l.give_moves ..
  | @offer d next m hlive hoffering htaker hroom =>
    -- A lane that has ended is passed over, and nothing is seen of it.
    refine moves_setLane htaker hlane ?_ ?_
    · have hqueued : queuedTo next (if f.admits next then [.queued next d] else []) =
          if m.hasEnded || m.isFull then [] else [d] := by
        rw [admits_eq htaker]
        cases m.hasEnded || m.isFull <;> simp [queuedTo]
      have hhanded : handedTo next (if f.admits next then [.queued next d] else []) = [] := by
        split <;> rfl
      have hgone : ¬ Gone next (if f.admits next then [.queued next d] else []) := by
        split <;> simp [Gone]
      rw [hqueued, hhanded, decide_eq_false hgone]
      exact m.give_moves ..
    · intro hne
      split
      · exact ⟨by simp [queuedTo, Ne.symm hne], rfl, by simp [Gone]⟩
      · exact ⟨rfl, rfl, by simp [Gone]⟩
  | abort hcut hdraining => exact ⟨_, by simp [hlane, Lane.finish], .abort l hcut⟩
  | @hand j p rest hown =>
    refine moves_setLane hown hlane ?_ ?_
    · simpa [queuedTo, handedTo, Gone] using Lane.Moves.hand p rest
    · intro hne
      exact ⟨rfl, by simp [handedTo, Ne.symm hne], by simp [Gone]⟩
  | @retire j hown hclosing =>
    refine moves_setLane hown hlane ?_ fun _ => ⟨rfl, rfl, by simp [Gone]⟩
    exact .retire hclosing
  | @free j p queue hown =>
    refine moves_setLane hown hlane ?_ fun _ => ⟨rfl, rfl, by simp [Gone]⟩
    exact .free queue p
  | @fail j p queue hown =>
    refine moves_setLane hown hlane ?_ fun hne => ⟨rfl, rfl, by simp [Gone, hne]⟩
    simpa [queuedTo, handedTo, Gone] using Lane.Moves.lose queue p
  | @crash j p queue hown =>
    refine moves_setLane hown hlane ?_ fun hne => ⟨rfl, rfl, by simp [Gone, hne]⟩
    simpa [queuedTo, handedTo, Gone] using Lane.Moves.lose queue p

theorem Step.not_cancelled (hstep : Step cancelled f es f') : .cancelled ∉ es := by
  cases hstep with
  | spread => simp [takers]
  | offer =>
    split
    · simp
    · exact List.not_mem_nil
  | _ => simp

theorem Step.lossless (hstep : Step cancelled f es f') : f'.lossless = f.lossless := by
  cases hstep <;> rfl

theorem Step.length_lanes (hstep : Step cancelled f es f') : f'.lanes.length = f.lanes.length := by
  cases hstep <;> simp [setLane]

theorem Step.packets (hstep : Step cancelled f es f') :
    f'.packets = f.packets + (reads es).length := by
  cases hstep with
  | @spread d =>
    change f.packets + 1 = f.packets + (d :: reads (f.takers d)).length
    rw [reads_takers, List.length_singleton]
  | offer => split <;> rfl
  | _ => rfl

/-! ## The loop and the workers make these steps -/

/-- What is seen when the source answers. -/
def shows (f : Fanout) : Reading → List Event
  | .packet d => .read d :: if f.lossless then [] else f.takers d
  | .failed _ => []

theorem Step.of_read {r : Reading} (hstep : f.read r = some f') : Step false f (f.shows r) f' := by
  have hphase : f.phase = .reading := by
    cases h : f.phase with
    | reading => rfl
    | _ => simp [Fanout.read, isReading, h] at hstep
  have hreading : f.isReading = true := by simp [isReading, hphase]
  cases r with
  | packet d =>
    obtain rfl : f.packet d = f' := by simpa [Fanout.read, hreading] using hstep
    cases hloss : f.lossless with
    | true => simpa [packet, shows, hloss] using Step.hold rfl hphase hloss
    | false => simpa [packet, shows, hloss] using Step.spread rfl hphase hloss
  | failed e =>
    cases hterminal : e.isTerminal with
    | true =>
      obtain rfl : { f with phase := .draining } = f' := by
        simpa [Fanout.read, hreading, hterminal] using hstep
      exact .drain hphase
    | false =>
      obtain rfl : f = f' := by simpa [Fanout.read, hreading, hterminal] using hstep
      exact .stay

theorem Step.of_offer (hstep : f.offer cancelled = some f') :
    ∃ d next, f.phase = .offering d next ∧
      Step cancelled f (if !cancelled && f.admits next then [.queued next d] else []) f' := by
  rw [Fanout.offer] at hstep
  cases hphase : f.phase with
  | reading | draining | returned => simp [hphase] at hstep
  | offering d next =>
    refine ⟨d, next, rfl, ?_⟩
    simp only [hphase] at hstep
    cases cancelled with
    | true =>
      obtain rfl : { f with phase := .reading } = f' := by simpa using hstep
      exact .offered hphase (.inl rfl)
    | false =>
      cases hlane : f.lanes[next]? with
      | none =>
        obtain rfl : { f with phase := .reading } = f' := by simpa [hlane] using hstep
        have hadmits : f.admits next = false := by simp [admits, hlane]
        simpa [hadmits] using Step.offered hphase (.inr (List.getElem?_eq_none_iff.mp hlane))
      | some l =>
        simp only [hlane, Bool.false_eq_true, if_false] at hstep
        split at hstep
        · cases hstep
        · rename_i hroom
          obtain rfl := Option.some.inj hstep
          have hroom : l.hasEnded = true ∨ l.isFull = false := by
            cases hfull : l.isFull <;> cases hended : l.hasEnded <;> simp [hfull, hended] at hroom ⊢
          simpa [setLane] using Step.offer rfl hphase hlane hroom

theorem Step.of_close (hstep : f.close cancelled = some f') : Step cancelled f [] f' := by
  rw [close] at hstep
  split at hstep
  · cases hstep
  · rename_i hphase
    have hphase : f.phase = .draining := by simpa using hphase
    split at hstep
    · rename_i hcut
      obtain rfl := Option.some.inj hstep
      exact .abort hcut hphase
    · split at hstep
      · rename_i hall
        obtain rfl := Option.some.inj hstep
        exact .done hphase (List.all_eq_true.mp hall)
      · cases hstep

/-- What an idle worker does. -/
theorem receive_eq_some (hstep : f.receive i = some f') :
    (∃ p rest, f.lanes[i]? = some ⟨p :: rest, .idle⟩ ∧ f' = f.setLane i ⟨rest, .writing p⟩) ∨
      f.lanes[i]? = some ⟨[], .idle⟩ ∧ f.isClosing = true ∧ f' = f.setLane i ⟨[], .ended⟩ := by
  rw [receive] at hstep
  split at hstep
  · rename_i p rest hlane
    exact .inl ⟨p, rest, hlane, (Option.some.inj hstep).symm⟩
  · rename_i hlane
    split at hstep
    · rename_i hclosing
      exact .inr ⟨hlane, hclosing, (Option.some.inj hstep).symm⟩
    · cases hstep
  · cases hstep

end Fanout

end Headend.Media
