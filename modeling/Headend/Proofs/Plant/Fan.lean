import Headend.Plant.Fan
import Headend.Proofs.Fanout.Lossless
import Headend.Proofs.Fanout.Lossy

/-!
# Runs of a fan-out at work

Here the steps are those that the loop and the lanes of a `Fan` make, with its source and its sinks.
The pipes may change in any way between two steps, so a run covers whatever goes on around the
fan-out. Every run is a run of the fan-out proper, and what holds of those holds here.
-/

namespace Headend.Plant.Fan

open Media Media.Fanout

variable {f f' f₀ : Fan} {es : List Event} {i j : Nat} {pipes pipes' : Pipes} {cancelled : Bool}

/-! ## Events -/

/-- What the next step of the loop shows. -/
def loopEvents (f : Fan) (cancelled : Bool) (pipes : Pipes) : List Event :=
  match f.core.phase with
  | .reading =>
    if cancelled then [] else
    match f.source.read pipes with
    | some (r, _) => f.core.shows r
    | none => []
  | .offering d next => if !cancelled && f.core.admits next then [.queued next d] else []
  | _ => []

/-- What comes of a sink's next move. -/
def progressEvents (i : Nat) : Sink.Progress → List Event
  | .working => []
  | .done (.ok _) => []
  | .done (.error e) => if e.isTerminal then [.failed i] else []
  | .crashed => [.crashed i]

/-- What the next step of a lane shows. -/
def laneEvents (f : Fan) (i : Nat) (pipes : Pipes) : List Event :=
  match f.core.lanes[i]? with
  | some ⟨p :: _, .idle⟩ => [.handed i p]
  | some ⟨_, .writing _⟩ =>
    match f.sinks[i]?.bind (·.advance pipes) with
    | some (_, _, progress) => progressEvents i progress
    | none => []
  | _ => []

/-- The fan-out gets from `f₀` to the last state with these events. -/
inductive Run (f₀ : Fan) : List Event → Fan → Prop where
  | start : Run f₀ [] f₀
  | loop {es : List Event} {f f' : Fan} {pipes pipes' : Pipes} (hrun : Run f₀ es f)
      (hstep : f.loop (decide (.cancelled ∈ es)) pipes = some (f', pipes')) :
      Run f₀ (es ++ f.loopEvents (decide (.cancelled ∈ es)) pipes) f'
  | lane {es : List Event} {f f' : Fan} {pipes pipes' : Pipes} (i : Nat) (hrun : Run f₀ es f)
      (hstep : f.lane i pipes = some (f', pipes')) : Run f₀ (es ++ f.laneEvents i pipes) f'
  | cancel {es : List Event} {f : Fan} (hrun : Run f₀ es f) : Run f₀ (es ++ [.cancelled]) f

/-! ## Steps of the loop -/

/-- The ways for the loop to make a step. -/
inductive LoopStep (cancelled : Bool) (f : Fan) (pipes : Pipes) :
    List Event → Fan → Pipes → Prop where
  | interrupt (hcut : cancelled = true) (hreading : f.core.phase = .reading) :
      LoopStep cancelled f pipes [] { f with core := { f.core with phase := .draining } } pipes
  | read {r : Reading} {source : Source} {rest : Pipes} {core : Fanout} (hlive : cancelled = false)
      (hanswer : f.source.read pipes = some (r, source, rest)) (hstep : f.core.read r = some core) :
      LoopStep cancelled f pipes (f.core.shows r) { f with source := source, core := core } rest
  | offer {d : Bytes} {next : Nat} {core : Fanout} (hoffering : f.core.phase = .offering d next)
      (hstep : f.core.offer cancelled = some core) :
      LoopStep cancelled f pipes
        (if !cancelled && f.core.admits next then [.queued next d] else [])
        { f with core := core } pipes
  | close {core : Fanout} (hstep : f.core.close cancelled = some core) :
      LoopStep cancelled f pipes [] { f with core := core }
        (f.source.drop
          (if cancelled then f.sinks.foldl (fun ps s => s.drop ps) pipes else pipes))

theorem loop_cases (hstep : f.loop cancelled pipes = some (f', pipes')) :
    LoopStep cancelled f pipes (f.loopEvents cancelled pipes) f' pipes' := by
  rw [loop] at hstep
  rw [loopEvents]
  cases hphase : f.core.phase with
  | reading =>
    rw [hphase] at hstep
    cases cancelled with
    | true =>
      obtain ⟨rfl, rfl⟩ :
          { f with core := { f.core with phase := .draining } } = f' ∧ pipes = pipes' := by
        simpa [Fanout.interrupt, isReading, hphase] using hstep
      exact .interrupt rfl hphase
    | false =>
      cases hread : f.source.read pipes with
      | none => simp [hread] at hstep
      | some answer =>
        obtain ⟨r, source, rest⟩ := answer
        cases hcore : f.core.read r with
        | none => simp [hread, hcore] at hstep
        | some core =>
          obtain ⟨rfl, rfl⟩ : { f with source := source, core := core } = f' ∧ rest = pipes' := by
            simpa [hread, hcore] using hstep
          exact .read rfl hread hcore
  | offering d next =>
    simp only [hphase, Option.map_eq_some_iff, Prod.mk.injEq] at hstep
    obtain ⟨core, hcore, rfl, rfl⟩ := hstep
    exact .offer hphase hcore
  | draining =>
    rw [hphase] at hstep
    cases hcore : f.core.close cancelled with
    | none => simp [hcore] at hstep
    | some core =>
      simp only [hcore, Option.bind_eq_bind, Option.bind_some] at hstep
      cases hstep
      exact .close hcore
  | returned => simp [hphase] at hstep

/-- The loop makes steps of the fan-out. -/
theorem LoopStep.core (hstep₀ : LoopStep cancelled f pipes es f' pipes') :
    Step cancelled f.core es f'.core := by
  cases hstep₀ with
  | interrupt hcut hreading => exact .drain hreading
  | read hlive hanswer hstep₀ =>
    subst hlive
    exact .of_read hstep₀
  | offer hoffering hstep₀ =>
    obtain ⟨d, next, hphase, hstep⟩ := Step.of_offer hstep₀
    cases hoffering.symm.trans hphase
    exact hstep
  | close hstep₀ => exact .of_close hstep₀

theorem LoopStep.sinks (hstep : LoopStep cancelled f pipes es f' pipes') : f'.sinks = f.sinks := by
  cases hstep <;> rfl

/-! ## Steps of a lane -/

/-- The ways for a lane to make a step. -/
inductive LaneStep (f : Fan) (i : Nat) (pipes : Pipes) : List Event → Fan → Pipes → Prop where
  | hand {p : Bytes} {rest : List Bytes} {sink : Sink} (hsinks : f.sinks[i]? = some sink)
      (hlane : f.core.lanes[i]? = some ⟨p :: rest, .idle⟩) :
      LaneStep f i pipes [.handed i p]
        { f with
          core := f.core.setLane i ⟨rest, .writing p⟩, sinks := f.sinks.set i (sink.start p) }
        pipes
  | retire {sink : Sink} (hsinks : f.sinks[i]? = some sink)
      (hlane : f.core.lanes[i]? = some ⟨[], .idle⟩) (hclosing : f.core.isClosing = true) :
      LaneStep f i pipes []
        { f with core := f.core.setLane i ⟨[], .ended⟩, sinks := f.sinks.set i sink }
        (sink.drop pipes)
  | work {q : List Bytes} {p : Bytes} {sink next : Sink} {rest : Pipes}
      (hsinks : f.sinks[i]? = some sink) (hlane : f.core.lanes[i]? = some ⟨q, .writing p⟩)
      (hadvance : sink.advance pipes = some (next, rest, .working)) :
      LaneStep f i pipes [] { f with sinks := f.sinks.set i next } rest
  | free {q : List Bytes} {p : Bytes} {sink next : Sink} {rest : Pipes} {result : Except Error Nat}
      (hsinks : f.sinks[i]? = some sink) (hlane : f.core.lanes[i]? = some ⟨q, .writing p⟩)
      (hadvance : sink.advance pipes = some (next, rest, .done result))
      (hpassing : ∀ e, result = .error e → e.isTerminal = false) :
      LaneStep f i pipes []
        { f with core := f.core.setLane i ⟨q, .idle⟩, sinks := f.sinks.set i next } rest
  | fail {q : List Bytes} {p : Bytes} {sink next : Sink} {rest : Pipes} {e : Error}
      (hsinks : f.sinks[i]? = some sink) (hlane : f.core.lanes[i]? = some ⟨q, .writing p⟩)
      (hadvance : sink.advance pipes = some (next, rest, .done (.error e)))
      (hterminal : e.isTerminal = true) :
      LaneStep f i pipes [.failed i]
        { f with core := f.core.setLane i ⟨[], .ended⟩, sinks := f.sinks.set i next }
        (next.drop rest)
  | crash {q : List Bytes} {p : Bytes} {sink next : Sink} {rest : Pipes}
      (hsinks : f.sinks[i]? = some sink) (hlane : f.core.lanes[i]? = some ⟨q, .writing p⟩)
      (hadvance : sink.advance pipes = some (next, rest, .crashed)) :
      LaneStep f i pipes [.crashed i]
        { f with core := f.core.setLane i ⟨[], .ended⟩, sinks := f.sinks.set i next }
        (next.drop rest)

theorem lane_cases (hstep : f.lane i pipes = some (f', pipes')) :
    LaneStep f i pipes (f.laneEvents i pipes) f' pipes' := by
  rw [lane] at hstep
  rw [laneEvents]
  cases hsink : f.sinks[i]? with
  | none => simp [hsink] at hstep
  | some sink =>
  cases hlane : f.core.lanes[i]? with
  | none => simp [hsink, worker, hlane] at hstep
  | some l =>
  simp only [hsink, worker_eq hlane, Option.bind_eq_bind, Option.bind_some] at hstep
  obtain ⟨queue, worker⟩ := l
  cases worker with
  | ended => cases hstep
  | idle =>
    cases hcore : f.core.receive i with
    | none => simp [hcore] at hstep
    | some core =>
      simp only [hcore, Option.bind_some] at hstep
      rcases receive_eq_some hcore with ⟨p, rest, hlane₀, rfl⟩ | ⟨hlane₀, hclosing, rfl⟩
      · cases hlane.symm.trans hlane₀
        simp only [worker_setLane hlane] at hstep
        cases hstep
        simp only [worker_setLane hlane]
        exact .hand hsink hlane
      · cases hlane.symm.trans hlane₀
        simp only [worker_setLane hlane] at hstep
        cases hstep
        simp only [worker_setLane hlane]
        exact .retire hsink hlane hclosing
  | writing p =>
    cases hadvance : sink.advance pipes with
    | none => simp [hadvance] at hstep
    | some answer =>
      obtain ⟨next, rest, progress⟩ := answer
      simp only [hadvance, Option.bind_some] at hstep ⊢
      have hcomplete (terminal : Bool) : f.core.complete i terminal =
          some (f.core.setLane i (if terminal then ⟨[], .ended⟩ else ⟨queue, .idle⟩)) := by
        simp [complete, hlane, setLane]
      cases progress with
      | working =>
        cases hstep
        simp only [worker_eq hlane]
        exact .work hsink hlane hadvance
      | done result =>
        cases result with
        | ok n =>
          simp only [hcomplete, Option.bind_some] at hstep
          cases hstep
          simp only [worker_setLane hlane]
          exact .free hsink hlane hadvance (by simp)
        | error e =>
          simp only [hcomplete, Option.bind_some] at hstep
          cases hstep
          simp only [worker_setLane hlane, progressEvents]
          cases hterminal : e.isTerminal with
          | true => exact .fail hsink hlane hadvance hterminal
          | false =>
            refine .free hsink hlane hadvance ?_
            rintro e ⟨⟩
            exact hterminal
      | crashed =>
        simp only [hcomplete, Option.bind_some] at hstep
        cases hstep
        simp only [worker_setLane hlane]
        exact .crash hsink hlane hadvance

/-- Why a lane makes no step. -/
theorem lane_eq_none {l : Lane} {sink : Sink} (hlane : f.core.lanes[i]? = some l)
    (hsinks : f.sinks[i]? = some sink) (hblocked : f.lane i pipes = none) :
    l.worker = .ended ∨ l = ⟨[], .idle⟩ ∧ f.core.isClosing = false ∨
      ∃ p, l.worker = .writing p ∧ sink.advance pipes = none := by
  obtain ⟨queue, worker⟩ := l
  cases worker with
  | ended => exact .inl rfl
  | idle =>
    cases queue with
    | nil =>
      cases hclosing : f.core.isClosing with
      | true => simp [Fan.lane, hsinks, worker_eq hlane, receive, hlane, hclosing] at hblocked
      | false => exact .inr (.inl ⟨rfl, rfl⟩)
    | cons p rest => simp [Fan.lane, hsinks, worker_eq hlane, receive, hlane] at hblocked
  | writing p =>
    refine .inr (.inr ⟨p, rfl, ?_⟩)
    cases hadvance : sink.advance pipes with
    | none => rfl
    | some answer =>
      obtain ⟨next, rest, progress⟩ := answer
      cases progress with
      | working => simp [Fan.lane, hsinks, worker_eq hlane, hadvance] at hblocked
      | crashed => simp [Fan.lane, hsinks, worker_eq hlane, hadvance, complete, hlane] at hblocked
      | done result =>
        cases result <;>
          simp [Fan.lane, hsinks, worker_eq hlane, hadvance, complete, hlane] at hblocked

theorem LaneStep.core (hstep : LaneStep f i pipes es f' pipes') :
    Step cancelled f.core es f'.core := by
  cases hstep with
  | hand hsinks hlane => exact .hand hlane
  | retire hsinks hlane hclosing => exact .retire hlane hclosing
  | work => exact .stay
  | free hsinks hlane => exact .free hlane
  | fail hsinks hlane => exact .fail hlane
  | crash hsinks hlane => exact .crash hlane

theorem LaneStep.length_sinks (hstep : LaneStep f i pipes es f' pipes') :
    f'.sinks.length = f.sinks.length := by
  cases hstep <;> exact List.length_set

/-! ## Runs -/

theorem Run.core (hrun : Run f₀ es f) : Fanout.Run f₀.core es f.core := by
  induction hrun with
  | start => exact .start
  | loop hrun hstep ih => exact ih.step (loop_cases hstep).core
  | lane i hrun hstep ih => exact ih.step (lane_cases hstep).core
  | cancel hrun ih => exact ih.cancel

theorem Run.length_sinks (hrun : Run f₀ es f) : f.sinks.length = f₀.sinks.length := by
  induction hrun with
  | start => rfl
  | loop hrun hstep ih => exact (congrArg List.length (loop_cases hstep).sinks).trans ih
  | lane i hrun hstep ih => exact (lane_cases hstep).length_sinks.trans ih
  | cancel hrun ih => exact ih

end Headend.Plant.Fan
