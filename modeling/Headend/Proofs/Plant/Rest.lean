import Headend.Proofs.Plant.Grows
import Headend.Proofs.Plant.Shut

/-!
# Tasks at rest

Why a task of a plant makes no step. A task whose token is cancelled has ended when it can make
none, except for a relay, which may wait for room in a pipe until that is closed.
-/

namespace Headend.Plant

open Media

variable {p p' : Plant} {k : Nat}

/-- Only a task of the plant can move. -/
theorem mem_tasks {t : Task} (h : p.step t = some p') : t ∈ p.tasks := by
  -- Lanes and loops are listed fan by fan, and what a consumer does consumer by consumer.
  have hfan {k : Nat} {f : Fan} (hfound : p.fans[k]? = some f) {t : Task}
      (hmem : t ∈ laneTasks k f) : t ∈ p.tasks := by
    obtain ⟨hbound, rfl⟩ := List.getElem?_eq_some_iff.mp hfound
    have hk : laneTasks k p.fans[k] ∈ p.fans.mapIdx laneTasks :=
      List.mem_mapIdx.mpr ⟨k, hbound, rfl⟩
    exact List.mem_append_right _ (List.mem_flatten.mpr ⟨_, hk, hmem⟩)
  have hconsumer {k : Nat} {c : Consumer} (hfound : p.consumers[k]? = some c) {t : Task}
      (hmem : t ∈ [Task.receive k .video, .receive k .audio, .consumer k]) : t ∈ p.tasks := by
    have hbound := List.mem_range.mpr (List.getElem?_eq_some_iff.mp hfound).1
    have hmem : t ∈ (List.range p.consumers.length).flatMap fun k =>
        [.receive k .video, .receive k .audio, .consumer k] :=
          List.mem_flatMap.mpr ⟨k, hbound, hmem⟩
    exact List.mem_append_left _ (List.mem_append_left _ (List.mem_append_right _ hmem))
  cases t with
  | lane k i =>
    obtain ⟨f, hfound, h⟩ := Option.bind_eq_some_iff.mp h
    obtain ⟨_, hlane, _⟩ := Option.bind_eq_some_iff.mp h
    obtain ⟨sink, hi, -⟩ := Option.bind_eq_some_iff.mp hlane
    have hbound := List.mem_range.mpr (List.getElem?_eq_some_iff.mp hi).1
    exact hfan hfound (List.mem_append_left _ (List.mem_map_of_mem hbound))
  | loop k =>
    obtain ⟨f, hfound, -⟩ := Option.bind_eq_some_iff.mp h
    exact hfan hfound (List.mem_append_right _ (List.mem_singleton_self _))
  | relay k =>
    obtain ⟨relay, hfound, -⟩ := Option.bind_eq_some_iff.mp h
    have hbound := List.mem_range.mpr (List.getElem?_eq_some_iff.mp hfound).1
    exact List.mem_append_left _ (List.mem_append_right _ (List.mem_map_of_mem hbound))
  | receive k side =>
    obtain ⟨c, hfound, -⟩ := Option.bind_eq_some_iff.mp h
    exact hconsumer hfound (by cases side <;> simp)
  | consumer k =>
    obtain ⟨c, hfound, -⟩ := Option.bind_eq_some_iff.mp h
    exact hconsumer hfound (by simp)
  | link k =>
    obtain ⟨l, hfound, -⟩ := Option.bind_eq_some_iff.mp h
    have hbound := List.mem_range.mpr (List.getElem?_eq_some_iff.mp hfound).1
    exact List.mem_append_left _ (List.mem_append_left _ (List.mem_append_left _
      (List.mem_map_of_mem hbound)))

theorem Fan.returned_of_rest {f : Fan} (hfound : p.fans[k]? = some f)
    (hrest : p.step (.loop k) = none) (hcancelled : p.tokens.cancelled f.token = true) :
    f.core.phase = .returned := by
  cases hphase : f.core.phase with
  | returned => rfl
  | reading =>
    simp [Plant.step, stepFan, hfound, loop, hphase, hcancelled, Fanout.interrupt,
      Fanout.isReading] at hrest
  | offering data next =>
    simp [Plant.step, stepFan, hfound, loop, hphase, hcancelled, Fanout.offer] at hrest
  | draining =>
    simp [Plant.step, stepFan, hfound, loop, hphase, hcancelled, Fanout.close] at hrest

/-- A relay at rest has ended: it waits neither for a chunk nor for room in a pipe. -/
theorem Relay.ended_of_rest {r : Relay} (hfound : p.relays[k]? = some r)
    (hrest : p.step (.relay k) = none) (hcancelled : p.tokens.cancelled r.token = true)
    (hclosed : ∀ j, some j ∈ r.sinks.map Sink.target → (p.pipes.get j).closed = true) :
    r.hasEnded = true := by
  have hstuck : r.step true p.pipes = none := by
    cases hstep : r.step true p.pipes with
    | none => rfl
    | some answer => simp [Plant.step, stepRelay, hfound, hcancelled, hstep] at hrest
  rw [Relay.hasEnded]
  cases hphase : r.phase with
  | ended => rfl
  | crashed => rfl
  | waiting => simp [Relay.step, hphase] at hstuck
  | serving chunk next =>
    cases hnext : r.sinks[next]? with
    | none => simp [Relay.step, hphase, hnext] at hstuck
    | some sink =>
      cases hmoving : sink.move with
      | none => simp [Relay.step, hphase, hnext, hmoving] at hstuck
      | some move =>
        have hmoves : sink.advance p.pipes ≠ none := by
          apply Sink.advance_of_closed hmoving
          intro j htarget
          apply hclosed j
          exact htarget ▸ List.mem_map_of_mem (List.mem_of_getElem? hnext)
        cases hadvance : sink.advance p.pipes with
        | none => exact absurd hadvance hmoves
        | some answer => simp [Relay.step, hphase, hnext, hmoving, hadvance] at hstuck

theorem Consumer.isDone_cancelled (c : Consumer) : c.isDone true = true := by
  rw [Consumer.isDone]
  split <;> rfl

theorem Consumer.returned_of_rest {c : Consumer} (hfound : p.consumers[k]? = some c)
    (hrest : p.step (.consumer k) = none) (hcancelled : p.tokens.cancelled c.token = true) :
    c.hasReturned = true := by
  rw [Consumer.hasReturned, beq_iff_eq]
  cases hphase : c.phase with
  | returned => rfl
  | ready => simp [Plant.step, stepConsumer, hfound, Consumer.step, hphase] at hrest
  | running =>
    simp [Plant.step, stepConsumer, hfound, Consumer.step, hphase, hcancelled,
      Consumer.isDone_cancelled] at hrest

theorem Link.ended_of_rest {l : Link} (hfound : p.links[k]? = some l)
    (hrest : p.step (.link k) = none) (hcancelled : p.tokens.cancelled l.watched = true) :
    l.ended = true := by
  apply Decidable.byContradiction
  intro hwaits
  simp [Plant.step, stepLink, hfound, hwaits, hcancelled] at hrest

/-- A link at rest has cancelled the token it is there for. -/
theorem Ties.cancelled_of_rest {watched linked : Nat} (h : p.Ties watched linked)
    (hrest : ∀ k, p.step (.link k) = none) (hcancelled : p.tokens.cancelled watched = true) :
    p.tokens.cancelled linked = true := by
  obtain ⟨k, ended, hlink, hreached⟩ := h
  exact hreached (Link.ended_of_rest hlink (hrest k) hcancelled)

end Headend.Plant
