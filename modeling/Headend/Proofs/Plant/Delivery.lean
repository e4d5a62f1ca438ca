import Headend.Proofs.Plant.Fan

/-!
# What a fan-out delivers

Which packets the sinks behind a fan-out are handed, over every run: any source, any sinks, any
order of the steps of the loop and of the lanes, and any pipes around them. A sink is behind on
account of itself alone. A lossy loop waits for nothing but its source; a lossless one waits for a
lane that is full, and for no lane whose sink is gone.
-/

namespace Headend.Plant.Fan

open Media Media.Fanout

variable {token : Nat} {source : Source} {mode : Bool} {sinks : List Sink} {es : List Event}
  {f : Fan}
  {i j : Nat}

/-! ## Waiting -/

/-- A lane with packets that cannot move waits for its own sink. -/
theorem Run.lane_blocked (hrun : Run (.new token source mode sinks) es f) (hi : i < sinks.length)
    {pipes : Pipes} (hblocked : f.lane i pipes = none) (hwaits : f.core.waiting i ≠ []) :
    ∃ sink p, f.sinks[i]? = some sink ∧ f.core.worker i = .writing p ∧
      sink.advance pipes = none := by
  obtain ⟨l, hlane, hledger⟩ := hrun.core.history hi
  have hsinks : i < f.sinks.length := by rwa [hrun.length_sinks]
  have hsink : f.sinks[i]? = some f.sinks[i] := List.getElem?_eq_getElem hsinks
  have hwaiting : f.core.waiting i = l.queue := by simp [waiting, hlane]
  rw [hwaiting] at hwaits
  rcases lane_eq_none hlane hsink hblocked with hended | ⟨rfl, -⟩ | ⟨p, hwriting, hadvance⟩
  · exact absurd (hledger.ended hended).1 hwaits
  · exact absurd rfl hwaits
  · exact ⟨_, p, hsink, (worker_eq hlane).trans hwriting, hadvance⟩

/-- While it reads, the loop waits for nothing but the source. -/
theorem loop_blocked {cancelled : Bool} {pipes : Pipes} (hreading₀ : f.core.phase = .reading)
    (hblocked : f.loop cancelled pipes = none) : f.source.read pipes = none := by
  have hreading : f.core.isReading = true := by simp [isReading, hreading₀]
  cases cancelled with
  | true => simp [loop, hreading₀, interrupt, isReading] at hblocked
  | false =>
    cases hread : f.source.read pipes with
    | none => rfl
    | some answer =>
      obtain ⟨r, source, rest⟩ := answer
      cases r with
      | packet d => simp [loop, hreading₀, hread, Fanout.read, hreading] at hblocked
      | failed e =>
        cases h : e.isTerminal <;>
          simp [loop, hreading₀, hread, Fanout.read, hreading, h] at hblocked

/-- With a packet in hand, the loop waits for the next lane, whose queue is full and whose worker
lives. -/
theorem Run.loop_offering_blocked (hrun : Run (.new token source mode sinks) es f) {d : Bytes}
    {next : Nat} {cancelled : Bool} {pipes : Pipes} (hoffering : f.core.phase = .offering d next)
    (hblocked : f.loop cancelled pipes = none) :
    next < sinks.length ∧ ¬ Gone next es ∧ (f.core.waiting next).length = laneDepth := by
  have hcore : f.core.offer cancelled = none := by
    simpa [Fan.loop, hoffering] using hblocked
  cases cancelled with
  | true => simp [Fanout.offer, hoffering] at hcore
  | false =>
    cases hlane : f.core.lanes[next]? with
    | none => simp [Fanout.offer, hoffering, hlane] at hcore
    | some l =>
      have hfull : l.isFull = true ∧ l.hasEnded = false := by
        simpa [Fanout.offer, hoffering, hlane] using hcore
      have hnext : next < sinks.length := by
        have hlength : f.core.lanes.length = sinks.length := by
          simp [hrun.core.length_lanes, Fan.new, Fanout.new]
        rw [← hlength]
        exact (List.getElem?_eq_some_iff.mp hlane).1
      obtain ⟨m, hm, hledger⟩ := hrun.core.history hnext
      obtain rfl : m = l := Option.some.inj (hm.symm.trans hlane)
      have hended : m.worker ≠ .ended := by simpa [Lane.hasEnded] using hfull.2
      have hroom : laneDepth ≤ m.queue.length := by simpa [Lane.isFull] using hfull.1
      refine ⟨hnext, fun hgone => hended (hledger.dropped hgone), ?_⟩
      simpa [waiting, hlane] using Nat.le_antisymm hledger.room hroom

/-! ## Schedules -/

inductive Turn where
  | loop
  | lane (i : Nat)
  | cancel

/-- One turn. A step that cannot be made is left out. -/
def turn (pipes : Pipes) (s : List Event × Fan) : Turn → List Event × Fan
  | .loop =>
    match s.2.loop (decide (.cancelled ∈ s.1)) pipes with
    | some (f, _) => (s.1 ++ s.2.loopEvents (decide (.cancelled ∈ s.1)) pipes, f)
    | none => s
  | .lane i =>
    match s.2.lane i pipes with
    | some (f, _) => (s.1 ++ s.2.laneEvents i pipes, f)
    | none => s
  | .cancel => (s.1 ++ [.cancelled], s.2)

/-- A run in which the pipes stay as they are. -/
def play (pipes : Pipes) (f : Fan) (turns : List Turn) : List Event × Fan :=
  turns.foldl (turn pipes) ([], f)

theorem Run.turn {f₀ : Fan} (pipes : Pipes) (hrun : Run f₀ es f) (t : Turn) :
    Run f₀ (Fan.turn pipes (es, f) t).1 (Fan.turn pipes (es, f) t).2 := by
  cases t with
  | loop =>
    simp only [Fan.turn]
    split
    · rename_i hstep
      exact .loop hrun hstep
    · exact hrun
  | lane i =>
    simp only [Fan.turn]
    split
    · rename_i hstep
      exact .lane i hrun hstep
    · exact hrun
  | cancel => exact .cancel hrun

theorem Run.play (pipes : Pipes) (f₀ : Fan) (turns : List Turn) :
    Run f₀ (Fan.play pipes f₀ turns).1 (Fan.play pipes f₀ turns).2 := by
  have hfold (s : List Event × Fan) (hrun : Run f₀ s.1 s.2) :
      Run f₀ (turns.foldl (Fan.turn pipes) s).1 (turns.foldl (Fan.turn pipes) s).2 := by
    induction turns generalizing s with
    | nil => exact hrun
    | cons t turns ih => exact ih _ (hrun.turn pipes t)
  exact hfold ([], f₀) .start

/-! ## Delivery -/

/-- Without a cancellation, a sink is handed packets in the order in which they were read, each at
most once, and it lacks one only if its lane was full then, or if it is gone. The loop waits for
nothing but its source, a lane for nothing but its sink, and no lane has a packet left once the loop
has returned. -/
theorem delivers_lossy (hrun : Run (.new token source false sinks) es f)
    (huncut : .cancelled ∉ es) :
    f.core.packets = (reads es).length ∧
    (∀ d next, f.core.phase ≠ .offering d next) ∧
    (∀ pipes, f.core.phase = .reading → f.loop false pipes = none → f.source.read pipes = none) ∧
    ∀ i < sinks.length,
      (∃ taken waits : List Nat,
        (taken ++ waits).Sublist (List.range (reads es).length) ∧
        (handedTo i es).map some = taken.map ((reads es)[·]?) ∧
        (f.core.waiting i).map some = waits.map ((reads es)[·]?) ∧
        ∀ j < (reads es).length, j ∉ taken ++ waits → FoundFull i es j ∨ Gone i es) ∧
      (¬ Gone i es → (∀ j, ¬ FoundFull i es j) →
        handedTo i es ++ f.core.waiting i = reads es) ∧
      (∀ pipes, f.lane i pipes = none → f.core.waiting i ≠ [] →
        ∃ sink p, f.sinks[i]? = some sink ∧ f.core.worker i = .writing p ∧
          sink.advance pipes = none) ∧
      (f.core.phase = .returned → f.core.waiting i = []) := by
  refine ⟨hrun.core.packets, hrun.core.not_offering, fun _ => loop_blocked, fun i hi => ?_⟩
  refine ⟨hrun.core.accounted huncut hi, hrun.core.handedTo_append_waiting huncut hi, ?_, ?_⟩
  · intro pipes
    exact hrun.lane_blocked hi
  · intro hreturned
    exact hrun.core.waiting_returned hreturned hi

def lossyPair : Fan :=
  .new 0 (.script [.packet [1], .packet [2], .failed .notReady, .packet [3]] false) false
    [.new (.stub [.fail .pipeClosed] []), .new (.stub [.fail .notReady, .ok] [])]

def lossyTurns : List Turn :=
  [.loop, .loop, .lane 0, .lane 0, .loop, .loop, .loop, .lane 1, .lane 1, .lane 1, .lane 1, .lane 1,
    .lane 1, .lane 1, .loop]

/-- Three packets, the first sink lost at the first of them. -/
theorem delivers_lossy_past_failure :
    ∃ es f, Run lossyPair es f ∧ .cancelled ∉ es ∧ Gone 0 es ∧ f.core.phase = .returned ∧
      f.core.packets = 3 ∧ handedTo 1 es = [[1], [2], [3]] := by
  have hrun : Run lossyPair _ _ := .play [] lossyPair lossyTurns
  have huncut : .cancelled ∉ (play [] lossyPair lossyTurns).1 := by decide
  have hkept : ¬ Gone 1 (play [] lossyPair lossyTurns).1 := by decide
  have hreturned : (play [] lossyPair lossyTurns).2.core.phase = .returned := by decide
  have hroomy (j : Nat) : ¬ FoundFull 1 (play [] lossyPair lossyTurns).1 j :=
    fun h => absurd h.laneDepth_le (by decide)
  obtain ⟨hpackets, -, -, hsinks⟩ := delivers_lossy hrun huncut
  obtain ⟨-, hall, -, hempty⟩ := hsinks 1 (by decide)
  refine ⟨_, _, hrun, huncut, by decide, hreturned, hpackets, ?_⟩
  have := hall hkept hroomy
  rw [hempty hreturned, List.append_nil] at this
  exact this

/-- Without a cancellation, a sink that is not gone gets every packet once and in order. The loop
waits only for such a sink, and only while its lane is full. Cancelled or not, what was queued to
two of them are first parts of what was read, and the earlier one is ahead by one packet at most. -/
theorem delivers_lossless (hrun : Run (.new token source true sinks) es f) :
    (.cancelled ∉ es → ∀ i < sinks.length, ¬ Gone i es →
      handedTo i es ++ f.core.waiting i ++ f.core.inHand i = reads es ∧
      (f.core.phase = .returned → handedTo i es = reads es)) ∧
    (∀ d next pipes, f.core.phase = .offering d next → f.loop false pipes = none →
      next < sinks.length ∧ ¬ Gone next es ∧ (f.core.waiting next).length = laneDepth) ∧
    ∀ i j, i ≤ j → j < sinks.length → ¬ Gone i es → ¬ Gone j es →
      queuedTo i es <+: reads es ∧ queuedTo j es <+: reads es ∧
      (queuedTo j es).length ≤ (queuedTo i es).length ∧
      (queuedTo i es).length ≤ (queuedTo j es).length + 1 := by
  refine ⟨fun huncut i hi hkept => ⟨?_, fun hreturned => ?_⟩, ?_, ?_⟩
  · exact hrun.core.handedTo_append_inHand huncut hi hkept
  · have hall := hrun.core.handedTo_append_inHand huncut hi hkept
    have hwaiting : f.core.waiting i = [] := hrun.core.waiting_returned hreturned hi
    simpa [hwaiting, inHand, hreturned] using hall
  · intro d next pipes
    exact hrun.loop_offering_blocked
  · intro i j hij hj hi' hj'
    obtain ⟨next, hprogress⟩ := hrun.core.progress
    exact hprogress.level.queuedTo_le hij hj hi' hj'

def losslessTriple : Fan :=
  .new 0 (.script [.packet [1], .packet [2], .packet [3]] false) true
    [.new (.stub [.fail .pipeClosed] []), .new (.stub [] []), .new (.stub [] [])]

def losslessTurns : List Turn :=
  [.loop, .loop, .lane 0, .lane 0, .loop, .loop, .loop, .loop, .loop, .loop, .cancel, .loop, .loop,
    .loop]

/-- Cancelled between two lanes, behind a sink that is lost. -/
theorem delivers_lossless_cut_short :
    ∃ es f, Run losslessTriple es f ∧ Gone 0 es ∧ f.core.phase = .returned ∧
      queuedTo 1 es = [[1], [2]] ∧ queuedTo 2 es = [[1]] ∧
      (queuedTo 1 es).length ≤ (queuedTo 2 es).length + 1 := by
  have hrun : Run losslessTriple _ _ := .play [] losslessTriple losslessTurns
  obtain ⟨-, -, hlevel⟩ := delivers_lossless hrun
  obtain ⟨-, -, -, hahead⟩ := hlevel 1 2 (by decide) (by decide) (by decide) (by decide)
  exact ⟨_, _, hrun, by decide, by decide, by decide, by decide, hahead⟩

end Headend.Plant.Fan
