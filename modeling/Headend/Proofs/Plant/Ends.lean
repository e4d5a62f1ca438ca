import Headend.Proofs.Plant.Rest

/-!
# Who writes to a pipe, and who was called

`targets` lists the pipes that the sinks of a plant write to, and `begun` tells which consumers were
called. No task hands a writing end on, so a pipe only gets a writer when a track is piped into it,
and a consumer that was called is never called again.
-/

namespace Headend.Plant

open Media

variable {p p' : Plant} {k : Nat}

def Fan.targets (f : Fan) : List (Option Nat) := f.sinks.map Sink.target

def Relay.targets (r : Relay) : List (Option Nat) := r.sinks.map Sink.target

/-- Where all sinks write to. -/
def targets (p : Plant) : List (Option Nat) :=
  p.fans.flatMap Fan.targets ++ p.relays.flatMap Relay.targets

/-- How many sinks write to a pipe. -/
def writers (p : Plant) (k : Nat) : Nat := p.targets.count (some k)

/-- For each consumer, whether it was called. -/
def begun (p : Plant) : List Bool := p.consumers.map Consumer.hasStarted

/-! ## Steps -/

/-- The consumer that a task calls, unless it was called before. -/
def Task.callee : Task → Option Nat
  | .consumer k => some k
  | _ => none

/-- The sinks write where they did, and nobody is called but the one. -/
structure Moves (callee : Option Nat) (p p' : Plant) : Prop where
  targets : p'.targets = p.targets
  begun : p'.begun = callee.elim p.begun fun k => p.begun.set k true

theorem Moves.refl (p : Plant) : Moves none p p := ⟨rfl, rfl⟩

theorem Moves.trans {p'' : Plant} (h : Moves none p p') (h' : Moves none p' p'') :
    Moves none p p'' :=
  ⟨h'.targets.trans h.targets, h'.begun.trans h.begun⟩

theorem Moves.stepFan {run : Fan → Option (Fan × Pipes)} (h : p.stepFan k run = some p')
    (hmoves : ∀ f f' pipes, run f = some (f', pipes) → f'.targets = f.targets) :
    Moves none p p' := by
  simp only [Plant.stepFan, Option.bind_eq_bind, Option.bind_eq_some_iff] at h
  obtain ⟨f, hfound, ⟨f', pipes⟩, hstep, h⟩ := h
  cases h
  refine ⟨?_, rfl⟩
  simp only [Plant.targets, List.flatMap_def]
  rw [Fan.map_set_of_eq hfound (hmoves f f' pipes hstep)]

theorem Moves.stepRelay (h : p.stepRelay k = some p') : Moves none p p' := by
  simp only [Plant.stepRelay, Option.bind_eq_bind, Option.bind_eq_some_iff] at h
  obtain ⟨r, hfound, ⟨r', pipes⟩, hstep, h⟩ := h
  cases h
  refine ⟨?_, rfl⟩
  have hkept : r'.targets = r.targets := (Relay.step_remains hstep).1.targets
  simp only [Plant.targets, List.flatMap_def]
  rw [Fan.map_set_of_eq hfound hkept]

theorem Consumer.hasStarted_of_receive {c d : Consumer} {cancelled : Bool} {side : Side}
    {pipes pipes' : Pipes} (h : c.receive cancelled side pipes = some (d, pipes')) :
    d.hasStarted = c.hasStarted := by
  unfold Consumer.receive at h
  split at h
  · cases h
  · split at h <;> cases h <;> rfl

theorem Consumer.hasStarted_of_step {c d : Consumer} {cancelled : Bool} {pipes pipes' : Pipes}
    (h : c.step cancelled pipes = some (d, pipes')) : d.hasStarted = true := by
  unfold Consumer.step at h
  split at h
  · cases h
    rfl
  · split at h <;> cases h
    rfl
  · cases h

theorem Moves.step {t : Task} (h : p.step t = some p') : Moves t.callee p p' := by
  cases t with
  | lane k i => exact .stepFan h fun f f' pipes hstep => (Fan.lane_cases hstep).targets
  | loop k =>
    refine .stepFan h fun f f' pipes hstep => ?_
    exact congrArg (List.map Sink.target) (Fan.loop_cases hstep).sinks
  | relay k => exact .stepRelay h
  | receive k side =>
    simp only [Plant.step, stepReceive, Option.bind_eq_bind, Option.bind_eq_some_iff] at h
    obtain ⟨c, hfound, ⟨d, pipes⟩, hstep, h⟩ := h
    cases h
    exact ⟨rfl, Fan.map_set_of_eq hfound (Consumer.hasStarted_of_receive hstep)⟩
  | consumer k =>
    simp only [Plant.step, stepConsumer, Option.bind_eq_bind, Option.bind_eq_some_iff] at h
    obtain ⟨c, -, ⟨d, pipes⟩, hstep, h⟩ := h
    cases h
    exact ⟨rfl, List.map_set.trans (congrArg _ (Consumer.hasStarted_of_step hstep))⟩
  | link k =>
    simp only [Plant.step, stepLink, Option.bind_eq_bind, Option.bind_eq_some_iff] at h
    obtain ⟨l, -, h⟩ := h
    split at h
    · cases h
    split at h
    · cases h
      exact ⟨rfl, rfl⟩
    split at h <;> cases h
    exact ⟨rfl, rfl⟩

/-- Only a consumer that was called returns. -/
theorem Moves.exit (h : p.exit k = some p') : Moves none p p' := by
  simp only [Plant.exit, Option.bind_eq_bind, Option.bind_eq_some_iff] at h
  obtain ⟨c, hfound, h⟩ := h
  split at h <;> cases h
  case isTrue hrunning =>
    refine ⟨rfl, Fan.map_set_of_eq hfound ?_⟩
    rw [Consumer.hasStarted, Consumer.hasStarted, hrunning]
    rfl

/-! ## Tracks and shared pipes -/

theorem writers_addFan (p : Plant) (f : Fan) :
    (p.addFan f).1.writers k = p.writers k + f.targets.count (some k) := by
  simp only [writers, targets, addFan, List.flatMap_append, List.flatMap_singleton,
    List.count_append]
  omega

theorem writers_addRelay (p : Plant) (r : Relay) :
    (p.addRelay r).1.writers k = p.writers k + r.targets.count (some k) := by
  simp only [writers, targets, addRelay, List.flatMap_append, List.flatMap_singleton,
    List.count_append]
  omega

/-- A track that is piped takes the writing end it is given, and no other. -/
theorem writers_pipeTrack (codec : Codec) (token : Nat) (source : Source) (republish : Bool)
    (target : Option Nat) (hold : k < p.pipes.length) :
    (p.pipeTrack codec token source republish target).1.writers k
      = p.writers k + [target].count (some k) := by
  let sinks := if republish then [Sink.new .republish] else []
  have hidle : (sinks.map Sink.target).count (some k) = 0 := by
    cases republish <;> rfl
  have hfan (last : Sink) : (Fan.new token source false (sinks ++ [last])).targets.count (some k)
      = [last.target].count (some k) := by
    rw [Fan.targets, Fan.new, List.map_append, List.count_append, hidle, Nat.zero_add]
    rfl
  cases target with
  | none => exact (writers_addFan p _).trans (congrArg _ hidle)
  | some t =>
    simp only [pipeTrack]
    cases muxerFor codec with
    | none => exact (writers_addFan p _).trans (congrArg _ (hfan _))
    | some m =>
      -- The muxer writes to a new pipe, from which the relay copies.
      have hinner : [some p.pipes.length].count (some k) = 0 := by
        simpa [List.count_singleton] using Nat.ne_of_gt hold
      have hrelay := writers_addRelay (k := k) (p.addPipe Pipe.defaultCapacity).1
        (.new token p.pipes.length [.new .forward (some t)])
      refine (writers_addFan _ _).trans ?_
      rw [hfan]
      exact (congrArg₂ (· + ·) hrelay hinner).trans (Nat.add_zero _)

theorem writers_share (count token source : Nat) (hold : k < p.pipes.length) :
    (p.share count token source).1.writers k = p.writers k := by
  refine (writers_addFan _ _).trans (Nat.add_eq_left.mpr ?_)
  rw [Fan.targets, Fan.new, List.map_map, List.map_map, List.count_eq_zero]
  intro hmem
  obtain ⟨j, -, hsame⟩ := List.mem_map.mp hmem
  have hsame : p.pipes.length + j = k := Option.some.inj hsame
  omega

/-- Pipes are shared through new ones. -/
theorem writers_split (count token : Nat) (pipes : Sides Nat) (hold : k < p.pipes.length) :
    (p.split count token pipes).1.writers k = p.writers k := by
  rw [split]
  split
  · rfl
  · have hgrown : k < (p.share count token pipes.video).1.pipes.length :=
      Nat.lt_of_lt_of_le hold (by simp [share, addFan])
    exact (writers_share _ _ _ hgrown).trans (writers_share _ _ _ hold)

theorem begun_pipeTrack (p : Plant) (codec : Codec) (token : Nat) (source : Source)
    (republish : Bool) (target : Option Nat) :
    (p.pipeTrack codec token source republish target).1.begun = p.begun := by
  simp only [pipeTrack]
  split <;> rfl

theorem split_consumers (p : Plant) (count token : Nat) (pipes : Sides Nat) :
    (p.split count token pipes).1.consumers = p.consumers := by
  rw [split]
  split <;> rfl

end Headend.Plant
