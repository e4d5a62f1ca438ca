import Headend.Proofs.Plant.Delivery
import Headend.Proofs.Plant.Line

/-!
# A track on its way to a consumer

The plant of a track that is piped, with a consumer at the other end, and every run of it: any order
of the steps of its tasks, with a cancellation at any moment or never. The consumer always has a
first part of what the muxer makes of the packets that its lane took; it has all of it once it has
seen the end, and unless something is cancelled or crashes, nothing but the end keeps the plant from
moving.
-/

namespace Headend.Plant

open Media Media.Fanout

/-! ## Runs -/

/-- What the next step of a task shows of a fan-out. -/
def fanEvents (p : Plant) (k : Nat) : Task → List Event
  | .loop j =>
    if j = k then
      p.fans[k]?.elim [] fun f => f.loopEvents (p.tokens.cancelled f.token) p.pipes
    else []
  | .lane j i => if j = k then p.fans[k]?.elim [] (·.laneEvents i p.pipes) else []
  | _ => []

/-- The plant gets from `p₀` to the last state. The events are those of a fan-out, with the moment
at which its token is cancelled from outside. -/
inductive Run (p₀ : Plant) (fan token : Nat) : List Event → Plant → Prop where
  | start : Run p₀ fan token [] p₀
  | step {es : List Event} {p p' : Plant} (t : Task) (hrun : Run p₀ fan token es p)
      (hstep : p.step t = some p') : Run p₀ fan token (es ++ p.fanEvents fan t) p'
  | cancel {es : List Event} {p : Plant} (hrun : Run p₀ fan token es p) :
      Run p₀ fan token (es ++ [.cancelled]) (p.cancel token)

/-- One task's turn. A step that cannot be made is left out. -/
def turn (fan : Nat) (s : List Event × Plant) (t : Task) : List Event × Plant :=
  match s.2.step t with
  | some p => (s.1 ++ s.2.fanEvents fan t, p)
  | none => s

/-- The tasks take turns. -/
def play (p : Plant) (fan : Nat) (ts : List Task) : List Event × Plant :=
  ts.foldl (turn fan) ([], p)

theorem Run.turn {p₀ p : Plant} {fan token : Nat} {es : List Event} (hrun : Run p₀ fan token es p)
    (t : Task) : Run p₀ fan token (Plant.turn fan (es, p) t).1 (Plant.turn fan (es, p) t).2 := by
  simp only [Plant.turn]
  split
  · rename_i hstep
    exact .step t hrun hstep
  · exact hrun

theorem Run.play (p₀ : Plant) (fan token : Nat) (ts : List Task) :
    Run p₀ fan token (p₀.play fan ts).1 (p₀.play fan ts).2 := by
  have hfold (s : List Event × Plant) (hrun : Run p₀ fan token s.1 s.2) :
      Run p₀ fan token (ts.foldl (Plant.turn fan) s).1 (ts.foldl (Plant.turn fan) s).2 := by
    induction ts generalizing s with
    | nil => exact hrun
    | cons t ts ih => exact ih _ (hrun.turn t)
  exact hfold ([], p₀) .start

/-! ## Steps of a line -/

namespace Line

variable {readings : List Reading} {hangs : Bool} {others : List Sink} {m : Muxer} {es : List Event}
  {x : Line} {p : Plant}

theorem cancelled_zero (x : Line) : x.plant.tokens.cancelled 0 = x.cut := by
  simp [plant, Tokens.cancelled, Tokens.fired, Tokens.ancestors]

theorem cancelled_one (x : Line) : x.plant.tokens.cancelled 1 = false := by
  simp [plant, Tokens.cancelled, Tokens.fired, Tokens.ancestors]

/-! The parts each stand alone, so a step of the plant is a step of one of them. -/

theorem stepFan_zero (x : Line) (run : Fan → Option (Fan × Pipes)) :
    x.plant.stepFan 0 run =
      (run x.fan).map fun r => { x.plant with fans := [r.1], pipes := r.2 } := by
  have h : x.plant.stepFan 0 run =
      (run x.fan).bind fun r => some { x.plant with fans := [r.1], pipes := r.2 } := rfl
  rw [h]
  cases run x.fan <;> rfl

theorem stepRelay_zero (x : Line) :
    x.plant.stepRelay 0 = ((x.carry.relay x.copied).step x.cut x.pipes).map fun r =>
      { x.plant with relays := [r.1], pipes := r.2 } := by
  have h : x.plant.stepRelay 0 =
      ((x.carry.relay x.copied).step (x.plant.tokens.cancelled 0) x.pipes).bind fun r =>
        some { x.plant with relays := [r.1], pipes := r.2 } := rfl
  rw [h, cancelled_zero]
  cases (x.carry.relay x.copied).step x.cut x.pipes <;> rfl

theorem stepReceive_zero (x : Line) (side : Side) :
    x.plant.stepReceive 0 side =
      ((reader x.spent x.received).receive false side x.pipes).map fun r =>
        { x.plant with consumers := [r.1], pipes := r.2 } := by
  have h : x.plant.stepReceive 0 side =
      ((reader x.spent x.received).receive (x.plant.tokens.cancelled 1) side x.pipes).bind fun r =>
        some { x.plant with consumers := [r.1], pipes := r.2 } := rfl
  rw [h, cancelled_one]
  cases (reader x.spent x.received).receive false side x.pipes <;> rfl

/-- The consumer never returns. -/
theorem stepConsumer_zero (x : Line) : x.plant.stepConsumer 0 = none := by
  have h : (reader x.spent x.received).step (x.plant.tokens.cancelled 1) x.pipes = none := by
    rw [cancelled_one]
    rfl
  have hbind : x.plant.stepConsumer 0 =
      ((reader x.spent x.received).step (x.plant.tokens.cancelled 1) x.pipes).bind fun r =>
        some { x.plant with
          consumers := [r.1]
          pipes := r.2
          tokens := if r.1.hasReturned && r.1.endsSession then x.plant.tokens.cancel r.1.token
            else x.plant.tokens } := rfl
  rw [hbind, h]
  rfl

/-- Every task keeps the line sound. -/
theorem Sound.step (h : Sound readings hangs others m es x) (hidle : ∀ s ∈ others, s.target = none)
    (hnarrow : m.assembler.Narrow) (t : Task) (hstep : x.plant.step t = some p) :
    ∃ x' : Line, p = x'.plant ∧ Sound readings hangs others m (es ++ x.plant.fanEvents 0 t) x' := by
  cases t with
  | lane k i =>
    cases k with
    | succ k => cases hstep
    | zero =>
      rw [Plant.step, stepFan_zero] at hstep
      obtain ⟨⟨fan, pipes⟩, hlane, rfl⟩ := Option.map_eq_some_iff.mp hstep
      obtain ⟨inner, rfl, hsound⟩ := h.lane hidle hnarrow hlane
      exact ⟨_, rfl, hsound⟩
  | loop k =>
    cases k with
    | succ k => cases hstep
    | zero =>
      have htoken : x.plant.tokens.cancelled x.fan.token = x.cut := by
        rw [h.run.token]
        exact x.cancelled_zero
      have hevents : x.plant.fanEvents 0 (.loop 0) = x.fan.loopEvents x.cut x.pipes := by
        change x.fan.loopEvents (x.plant.tokens.cancelled x.fan.token) x.pipes = _
        rw [htoken]
      rw [Plant.step, stepFan_zero] at hstep
      obtain ⟨⟨fan, pipes⟩, hloop, rfl⟩ := Option.map_eq_some_iff.mp hstep
      rw [htoken] at hloop
      obtain ⟨inner, rfl, hsound⟩ := h.loop hidle hloop
      rw [hevents]
      exact ⟨{ x with fan := fan, inner := inner }, rfl, hsound⟩
  | relay k =>
    cases k with
    | succ k => cases hstep
    | zero =>
      rw [Plant.step, stepRelay_zero] at hstep
      obtain ⟨⟨r, pipes⟩, hrelay, rfl⟩ := Option.map_eq_some_iff.mp hstep
      obtain ⟨target, inner, carry, copied, rfl, rfl, hsound⟩ := h.relay hnarrow hrelay
      exact ⟨_, rfl, (List.append_nil es).symm ▸ hsound⟩
  | receive k side =>
    cases k with
    | succ k => cases hstep
    | zero =>
      rw [Plant.step, stepReceive_zero] at hstep
      cases side with
      | audio => cases hstep
      | video =>
        obtain ⟨⟨c, pipes⟩, hreceive, rfl⟩ := Option.map_eq_some_iff.mp hstep
        obtain ⟨target, spent, received, rfl, rfl, hsound⟩ := h.receive hreceive
        exact ⟨_, rfl, (List.append_nil es).symm ▸ hsound⟩
  | consumer k =>
    cases k with
    | succ k => cases hstep
    | zero =>
      rw [Plant.step, stepConsumer_zero] at hstep
      cases hstep
  | link k => cases hstep

/-! ## No deadlock

For a chunk, a packet or the end that is under way can always be passed on. -/

/-- A consumer that cannot move has seen the end, or waits at an empty pipe that can still fill. -/
theorem Sound.reader_blocked (h : Sound readings hangs others m es x) (hunspent : x.spent = false)
    (hblocked : (reader x.spent x.received).receive false .video x.pipes = none) :
    x.target.queue = [] ∧ x.carry ≠ .ended := by
  rw [hunspent, receive_reader] at hblocked
  rcases Pipe.take_cases h.target with ⟨chunk, rest, hqueue, htake⟩ | ⟨hqueue, htake⟩
  · rw [htake] at hblocked
    cases hblocked
  · refine ⟨hqueue, fun hended => ?_⟩
    rw [htake, if_pos (h.targetWriter.mpr hended)] at hblocked
    cases hblocked

/-- A relay that cannot move, while there is room in the target, waits for the muxer. -/
theorem Sound.relay_blocked (h : Sound readings hangs others m es x) (huncut : x.cut = false)
    (hroom : x.target.queue = []) (hrunning : x.carry ≠ .ended)
    (hblocked : (x.carry.relay x.copied).step x.cut x.pipes = none) :
    x.inner.queue = [] ∧ x.fan.core.worker others.length ≠ .ended := by
  rw [huncut] at hblocked
  cases hcarry : x.carry with
  | ended => exact absurd hcarry hrunning
  | taken chunk | served chunk =>
    rw [hcarry] at hblocked
    cases hblocked
  | sending chunk =>
    have hget : x.pipes.get 0 = x.target := rfl
    rw [hcarry] at hblocked
    simp only [Relay.step, Carry.relay, Carry.phase, Carry.move, List.getElem?_cons_zero,
      Sink.advance, hget] at hblocked
    cases hoffer : x.target.offer chunk with
    | wait => exact absurd hroom (Pipe.queue_ne_nil_of_wait h.target hoffer)
    | broken | accepted =>
      rw [hoffer] at hblocked
      cases hblocked
  | waiting =>
    have hget : x.pipes.get 1 = x.inner := rfl
    rw [hcarry] at hblocked
    simp only [Relay.step, Carry.relay, Carry.phase, Bool.false_eq_true, if_false, hget] at hblocked
    rcases Pipe.take_cases h.inner with ⟨chunk, rest, hqueue, htake⟩ | ⟨hqueue, htake⟩
    · rw [htake] at hblocked
      cases hblocked
    · refine ⟨hqueue, fun hended => ?_⟩
      rw [htake, if_pos (h.innerWriter.mpr hended)] at hblocked
      cases hblocked

/-- If the muxer's lane cannot move, while there is room in its pipe, the loop still reads. -/
theorem Sound.lane_blocked (h : Sound readings hangs others m es x)
    (hidle : ∀ s ∈ others, s.target = none) (hroom : x.inner.queue = [])
    (hrunning : x.fan.core.worker others.length ≠ .ended)
    (hblocked : x.fan.lane others.length x.pipes = none) : x.fan.core.phase = .reading := by
  obtain ⟨s, hs, -⟩ := h.muxed
  obtain ⟨l, hlane, -⟩ := h.run.core.history (i := others.length) (by simp)
  have hworker : x.fan.core.worker others.length = l.worker := worker_eq hlane
  rcases Fan.lane_eq_none hlane hs hblocked with hended | ⟨-, hclosing⟩ | ⟨p, hwriting, hadvance⟩
  · exact absurd (hworker.trans hended) hrunning
  · have hoffering := h.run.core.not_offering
    cases hphase : x.fan.core.phase with
    | reading => rfl
    | offering d next => exact absurd hphase (hoffering d next)
    | draining | returned => simp [isClosing, hasReturned, hphase] at hclosing
  · -- A sink that waits finds its pipe full.
    obtain ⟨move, hmove⟩ := Option.ne_none_iff_exists'.mp (h.run.moving (hworker.trans hwriting) hs)
    obtain ⟨k, chunk, htarget, hwait⟩ := Sink.offer_eq_wait hmove hadvance
    obtain rfl : 1 = k := by
      rw [h.target_eq hidle hs, if_pos rfl] at htarget
      exact Option.some.inj htarget
    exact absurd hroom (Pipe.queue_ne_nil_of_wait h.inner hwait)

theorem Sound.spent_of_settled (h : Sound readings false others m es x)
    (hidle : ∀ s ∈ others, s.target = none) (huncut : .cancelled ∉ es)
    (hsettled : x.plant.Settled) :
    x.spent = true := by
  cases hspent : x.spent with
  | true => rfl
  | false =>
  -- From the consumer up: each waits for the one before it, and the source keeps nobody waiting.
  have hcut : x.cut = false := by simpa [huncut] using h.cut
  have hreceive : (reader x.spent x.received).receive false .video x.pipes = none := by
    have := hsettled (.receive 0 .video)
    rwa [Plant.step, stepReceive_zero, Option.map_eq_none_iff] at this
  have hrelay : (x.carry.relay x.copied).step x.cut x.pipes = none := by
    have := hsettled (.relay 0)
    rwa [Plant.step, stepRelay_zero, Option.map_eq_none_iff] at this
  have hlane : x.fan.lane others.length x.pipes = none := by
    have := hsettled (.lane 0 others.length)
    rwa [Plant.step, stepFan_zero, Option.map_eq_none_iff] at this
  have hloop : x.fan.loop (x.plant.tokens.cancelled x.fan.token) x.pipes = none := by
    have := hsettled (.loop 0)
    rwa [Plant.step, stepFan_zero, Option.map_eq_none_iff] at this
  obtain ⟨htarget, hcarry⟩ := h.reader_blocked hspent hreceive
  obtain ⟨hinner, hworker⟩ := h.relay_blocked hcut htarget hcarry hrelay
  have hreading := h.lane_blocked hidle hinner hworker hlane
  obtain ⟨rs, hsource⟩ := h.source
  have hread := Fan.loop_blocked hreading hloop
  rw [hsource] at hread
  cases rs with
  | nil => cases hread
  | cons r rs => cases hread

/-! ## Runs of a line -/

def start (readings : List Reading) (hangs : Bool) (others : List Sink) (m : Muxer)
    (capacity : Nat) : Line where
  cut := false
  target := .new capacity
  inner := .new Pipe.defaultCapacity
  fan := fan₀ readings hangs others m
  carry := .waiting
  copied := 0
  spent := false
  received := []

theorem Sound.start (readings : List Reading) (hangs : Bool) (others : List Sink) (m : Muxer)
    (capacity : Nat) :
    Sound readings hangs others m [] (start readings hangs others m capacity) := by
  have hworker : (fan₀ readings hangs others m).core.worker others.length = .idle := by
    simp [fan₀, Fan.new, Fanout.new, worker, Lane.new]
  have hsink : (fan₀ readings hangs others m).sinks[others.length]? =
      some (.new (.muxer m) (some 1)) := by
    simp [fan₀, Fan.new]
  refine
    { cut := rfl
      run := .start
      source := ⟨readings, rfl⟩
      target := .new capacity
      inner := .new _
      held := rfl
      innerReader := fun hgone => absurd hgone Bool.false_ne_true
      innerWriter := ?_
      targetWriter := by simp [Line.start, Pipe.new]
      carried := fun _ hended => absurd hended (by simp [Line.start])
      spent := fun hspent => absurd hspent Bool.false_ne_true
      unfailed := fun _ => List.not_mem_nil
      muxed := ⟨_, hsink, ?_⟩ }
  · change false = true ↔ (fan₀ readings hangs others m).core.worker others.length = .ended
    simp [hworker]
  · change Muxed m _ _ _ _ ((fan₀ readings hangs others m).core.worker others.length)
    rw [hworker]
    exact .idle rfl rfl

theorem Sound.of_run (hidle : ∀ s ∈ others, s.target = none) (hnarrow : m.assembler.Narrow)
    {capacity : Nat}
    (hrun : Plant.Run (Line.start readings hangs others m capacity).plant 0 0 es p) :
    ∃ x : Line, p = x.plant ∧ Sound readings hangs others m es x := by
  induction hrun with
  | start => exact ⟨_, rfl, .start readings hangs others m capacity⟩
  | step t hrun hstep ih =>
    obtain ⟨x, rfl, h⟩ := ih
    exact h.step hidle hnarrow t hstep
  | cancel hrun ih =>
    obtain ⟨x, rfl, h⟩ := ih
    exact ⟨{ x with cut := true }, rfl, h.cancel⟩

end Line

/-! ## Tracks -/

/-- A track that is read and piped, and a consumer of the pipe. -/
def tracked (codec : Codec) (readings : List Reading) (hangs republish : Bool) (capacity : Nat) :
    Plant :=
  let (p, token) := empty.freshToken
  let (p, target) := p.addPipe capacity
  let (p, _) := p.addReader target
  (pipeTrack p codec token (.script readings hangs) republish (some target)).1

/-- The lane of the muxer, which comes after that of the republisher. -/
def muxerLane (republish : Bool) : Nat := if republish then 1 else 0

/-- At any moment the consumer has a first part of what the muxer makes of the packets that were
queued to it. With nothing cancelled and no crash in the lane of the muxer, a consumer that has seen
the end has all of it, and in a settled plant whose source does not hang it has seen the end. -/
theorem consumer_tracked {codec : Codec} {m : Muxer} (hmuxed : muxerFor codec = some m)
    {readings : List Reading} {hangs republish : Bool} {capacity : Nat} {es : List Event}
    {p : Plant}
    (hrun : Run (tracked codec readings hangs republish capacity) 0 0 es p) :
    ∃ c, p.consumers = [c] ∧
      c.received.video <+: (collectAll m (queuedTo (muxerLane republish) es)).2 ∧
      (.cancelled ∉ es → .crashed (muxerLane republish) ∉ es →
        (c.spent.video = true →
          c.received.video = (collectAll m (queuedTo (muxerLane republish) es)).2) ∧
        (hangs = false → p.Settled → c.spent.video = true)) := by
  have hnarrow : m.assembler.Narrow := by
    cases codec <;> cases hmuxed <;> exact .new _
  -- With or without a republisher, what is piped is a line.
  obtain ⟨others, hidle, hlane, hstart⟩ : ∃ others : List Sink, (∀ s ∈ others, s.target = none) ∧
      others.length = muxerLane republish ∧ tracked codec readings hangs republish capacity =
        (Line.start readings hangs others m capacity).plant := by
    cases republish with
    | false =>
      refine ⟨[], by simp, rfl, ?_⟩
      cases codec <;> cases hmuxed <;> rfl
    | true =>
      refine ⟨[.new .republish], by simp [Sink.new], rfl, ?_⟩
      cases codec <;> cases hmuxed <;> rfl
  rw [hstart] at hrun
  obtain ⟨x, rfl, h⟩ := Line.Sound.of_run hidle hnarrow hrun
  rw [← hlane]
  refine ⟨_, rfl, h.received_prefix, fun huncut hsteady => ⟨h.received_eq huncut hsteady, ?_⟩⟩
  rintro rfl hsettled
  exact h.spent_of_settled hidle huncut hsettled

/-- A packet with one byte of payload; `n` is its number and its timestamp. -/
def opusPacket (n : UInt8) : Bytes := [0x80, 0x6F, 0, n, 0, 0, 0, n, 0, 0, 0, 1, 0xF8]

def opusTrack : Plant :=
  tracked .opus [.packet (opusPacket 1), .failed .notReady, .packet (opusPacket 2)] false true 1

def opusRounds : List Task :=
  (List.replicate 10 [Task.loop 0, .lane 0 0, .lane 0 1, .relay 0, .receive 0 .video]).flatten

/-- A track that is republished, too, and has ended. -/
theorem consumer_tracked_ended :
    ∃ es p c, Run opusTrack 0 0 es p ∧ .cancelled ∉ es ∧ p.consumers = [c] ∧
      c.spent.video = true ∧ queuedTo 1 es = [opusPacket 1, opusPacket 2] ∧
      c.received.video = (collectAll Muxer.opus [opusPacket 1, opusPacket 2]).2 ∧
      c.received.video.length = 1 := by
  have hrun : Run opusTrack 0 0 (opusTrack.play 0 opusRounds).1 (opusTrack.play 0 opusRounds).2 :=
    .play opusTrack 0 0 opusRounds
  have huncut : .cancelled ∉ (opusTrack.play 0 opusRounds).1 := by decide +kernel
  have hsteady : .crashed (muxerLane true) ∉ (opusTrack.play 0 opusRounds).1 := by decide +kernel
  have hqueued : queuedTo 1 (opusTrack.play 0 opusRounds).1 = [opusPacket 1, opusPacket 2] := by
    decide +kernel
  have hend : (opusTrack.play 0 opusRounds).2.consumers.map
      (fun c => (c.spent.video, c.received.video.length)) = [(true, 1)] := by decide +kernel
  obtain ⟨c, hc, -, hall⟩ := consumer_tracked (rfl : muxerFor .opus = some .opus) hrun
  rw [hc] at hend
  obtain ⟨hspent, hlength⟩ : c.spent.video = true ∧ c.received.video.length = 1 := by
    simpa using hend
  refine ⟨_, _, c, hrun, huncut, hc, hspent, hqueued, ?_, hlength⟩
  rw [← hqueued]
  exact (hall huncut hsteady).1 hspent

end Headend.Plant
