import Headend.Ingest.Registry
import Headend.Proofs.Plant.Grows

/-!
# What leaves the slot alone

Most of what happens to a registry concerns neither its slot nor its sessions: tasks of the plant
move, tokens are cancelled, tracks are published and piped, streams are destroyed. `Drifts` says
what all of this respects. The plant grows, and every stream becomes one that has the same token and
the same consumers, and that is destroyed if the stream before it was.
-/

namespace Headend.Ingest

open Plant

/-! ## Streams -/

namespace Stream

variable {p p' p'' : Plant} {x x' x'' : Stream}

/-- The consumers that its processors were called on. -/
def consumers (x : Stream) : List Nat := x.processors.filterMap Processor.consumer

/-- A stream that is destroyed has cancelled its token. -/
structure Sealed (p : Plant) (x : Stream) : Prop where
  closed : x.closed < p.tokens.all.length
  destroyed : x.destroyed = true → p.tokens.fired x.closed = true

theorem Sealed.grow (h : x.Sealed p) (hg : p.Grows p') : x.Sealed p' where
  closed := Nat.lt_of_lt_of_le h.closed hg.tokens.size
  destroyed hgone := hg.tokens.fired _ (h.destroyed hgone)

theorem Sealed.of_eq (h : x.Sealed p) (hclosed : x'.closed = x.closed)
    (hdestroyed : x'.destroyed = x.destroyed) : x'.Sealed p := by
  constructor
  · rw [hclosed]
    exact h.closed
  · rw [hclosed, hdestroyed]
    exact h.destroyed

/-- What may become of a stream while its plant grows. -/
structure Becomes (p p' : Plant) (x x' : Stream) : Prop where
  closed : x'.closed = x.closed
  consumers : x'.consumers = x.consumers
  destroyed : x.destroyed = true → x'.destroyed = true
  sealed : x.Sealed p → x'.Sealed p'

theorem Becomes.trans (h : Becomes p p' x x') (h' : Becomes p' p'' x' x'') :
    Becomes p p'' x x'' where
  closed := h'.closed.trans h.closed
  consumers := h'.consumers.trans h.consumers
  destroyed hgone := h'.destroyed (h.destroyed hgone)
  sealed hs := h'.sealed (h.sealed hs)

theorem Becomes.of_eq (hg : p.Grows p') (hclosed : x'.closed = x.closed)
    (hconsumers : x'.consumers = x.consumers) (hdestroyed : x'.destroyed = x.destroyed) :
    Becomes p p' x x' where
  closed := hclosed
  consumers := hconsumers
  destroyed hgone := hdestroyed.trans hgone
  sealed hs := (hs.grow hg).of_eq hclosed hdestroyed

theorem Becomes.of_grows (hg : p.Grows p') (x : Stream) : Becomes p p' x x := .of_eq hg rfl rfl rfl

/-- A stream that has been destroyed. -/
def ended (x : Stream) : Stream :=
  { x with
    destroyed := true
    writers := .both false
    readers := false
    tracks := .both none
    processors := x.processors.map fun q => { q with destroys := q.destroys + 1 }
    routes := [] }

theorem consumers_ended (x : Stream) : x.ended.consumers = x.consumers := by
  simp only [consumers, ended, List.filterMap_map]
  rfl

/-- To destroy a stream is to cancel its token. -/
theorem Becomes.ended (hg : (p.cancel x.closed).Grows p') : Becomes p p' x x.ended where
  closed := rfl
  consumers := consumers_ended x
  destroyed _ := rfl
  sealed hs := by
    have hfired : (p.cancel x.closed).tokens.fired x.closed = true :=
      Tokens.fired_cancel_self hs.closed
    have hsize := Nat.le_trans (Grows.cancel p x.closed).tokens.size hg.tokens.size
    exact ⟨Nat.lt_of_lt_of_le hs.closed hsize, fun _ => hg.tokens.fired _ hfired⟩

end Stream

/-- What may become of all streams. There may be new ones. -/
structure Flows (p : Plant) (xs : List Stream) (p' : Plant) (xs' : List Stream) : Prop where
  plant : p.Grows p'
  streams : ∀ (i : Nat) (x : Stream), xs[i]? = some x →
    ∃ x' : Stream, xs'[i]? = some x' ∧ x.Becomes p p' x'

section Flows

variable {p p' p'' : Plant} {xs xs' xs'' : List Stream}

theorem Flows.of_grows (hg : p.Grows p') (xs : List Stream) : Flows p xs p' xs :=
  ⟨hg, fun _ x hfound => ⟨x, hfound, .of_grows hg x⟩⟩

theorem Flows.trans (hf : Flows p xs p' xs') (hf' : Flows p' xs' p'' xs'') :
    Flows p xs p'' xs'' where
  plant := hf.plant.trans hf'.plant
  streams i x hfound := by
    obtain ⟨x', hfound, hbecomes⟩ := hf.streams i x hfound
    obtain ⟨x'', hfound, hbecomes'⟩ := hf'.streams i x' hfound
    exact ⟨x'', hfound, hbecomes.trans hbecomes'⟩

theorem Flows.concat (hg : p.Grows p') (xs : List Stream) (x : Stream) :
    Flows p xs p' (xs ++ [x]) where
  plant := hg
  streams _ y hfound := by
    have hbound := (List.getElem?_eq_some_iff.mp hfound).1
    exact ⟨y, (List.getElem?_append_left hbound).trans hfound, .of_grows hg y⟩

/-- One stream changes. -/
theorem Flows.modify {s : Nat} {f : Stream → Stream} (hg : p.Grows p')
    (hbecomes : ∀ x, xs[s]? = some x → x.Becomes p p' (f x)) :
    Flows p xs p' (xs.modify s f) where
  plant := hg
  streams i x hfound := by
    by_cases hsame : s = i
    · subst hsame
      refine ⟨f x, ?_, hbecomes x hfound⟩
      rw [List.getElem?_modify_eq, hfound]
      rfl
    · exact ⟨x, (List.getElem?_modify_ne _ _ hsame).trans hfound, .of_grows hg x⟩

end Flows

/-! ## Registries -/

namespace Registry

variable {r r' r'' : Registry} {s : Nat} {x : Stream}

/-- Slot, shutdown and sessions are the same. -/
structure Frame (r r' : Registry) : Prop where
  active : r'.active = r.active
  shutdown : r'.shutdown = r.shutdown
  sessions : r'.sessions = r.sessions
  runs : r'.runs = r.runs
  failFast : r'.failFast = r.failFast
  size : r'.streams.length = r.streams.length

theorem Frame.trans (hf : Frame r r') (hf' : Frame r' r'') : Frame r r'' where
  active := hf'.active.trans hf.active
  shutdown := hf'.shutdown.trans hf.shutdown
  sessions := hf'.sessions.trans hf.sessions
  runs := hf'.runs.trans hf.runs
  failFast := hf'.failFast.trans hf.failFast
  size := hf'.size.trans hf.size

theorem Frame.modify {plant : Plant} {router : Hls.Router Hls.Target} {pipings : List Piping}
    {f : Stream → Stream} : Frame r { r with
      plant := plant, router := router, pipings := pipings, streams := r.streams.modify s f } :=
  ⟨rfl, rfl, rfl, rfl, rfl, List.length_modify _ _ _⟩

/-- The slot is left alone. -/
structure Drifts (r r' : Registry) : Prop extends
  Frame r r', Flows r.plant r.streams r'.plant r'.streams

theorem Drifts.plants {p : Plant} (hg : r.plant.Grows p) : r.Drifts { r with plant := p } :=
  ⟨⟨rfl, rfl, rfl, rfl, rfl, rfl⟩, .of_grows hg _⟩

theorem Drifts.refl (r : Registry) : r.Drifts r := .plants (.refl _)

theorem Drifts.trans (hd : r.Drifts r') (hd' : r'.Drifts r'') : r.Drifts r'' :=
  ⟨hd.toFrame.trans hd'.toFrame, hd.toFlows.trans hd'.toFlows⟩

/-- One stream changes, but not its token, its consumers or whether it is destroyed. -/
theorem Drifts.of_touch {f : Stream → Stream} (hframe : Frame r r') (hg : r.plant.Grows r'.plant)
    (hstreams : r'.streams = r.streams.modify s f) (hclosed : ∀ x, (f x).closed = x.closed)
    (hconsumers : ∀ x, (f x).consumers = x.consumers)
    (hdestroyed : ∀ x, (f x).destroyed = x.destroyed) : r.Drifts r' := by
  refine ⟨hframe, hstreams ▸ .modify hg ?_⟩
  intro x _
  exact .of_eq hg (hclosed x) (hconsumers x) (hdestroyed x)

theorem Drifts.publish (r : Registry) (s : Nat) (track : LocalTrack) :
    r.Drifts (r.publish s track) :=
  .of_touch .modify (.refl _) rfl (fun _ => rfl) (fun _ => rfl) fun _ => rfl

theorem Drifts.unregisterRoutes (r : Registry) (s : Nat) : r.Drifts (r.unregisterRoutes s) := by
  simp only [Registry.unregisterRoutes]
  split
  · exact .refl r
  · exact .of_touch .modify (.refl _) rfl (fun _ => rfl) (fun _ => rfl) fun _ => rfl

theorem unregisterRoutes_plant (r : Registry) (s : Nat) :
    (r.unregisterRoutes s).plant = r.plant := by
  simp only [Registry.unregisterRoutes]
  split <;> rfl

theorem unregisterRoutes_streams_of_ne {i : Nat} (r : Registry) (hne : i ≠ s) :
    (r.unregisterRoutes s).streams[i]? = r.streams[i]? := by
  simp only [Registry.unregisterRoutes]
  split
  · rfl
  · exact List.getElem?_modify_ne _ _ hne.symm

/-! ### Destroying -/

/-- Each of the four ends of a stream is let go of if it was never taken. -/
theorem dropEnds_induct {R : Plant → Plant → Prop} (hrefl : ∀ p, R p p)
    (htrans : ∀ {p p' p''}, R p p' → R p' p'' → R p p'')
    (hwriter : ∀ p k, R p (p.updatePipe k Pipe.dropWriter))
    (hreader : ∀ p k, R p (p.updatePipe k Pipe.dropReader)) (x : Stream) (p : Plant) :
    R p (dropEnds x p) := by
  have hdrop {f : Pipe → Pipe} (hone : ∀ p k, R p (p.updatePipe k f)) (p : Plant) (held : Bool)
      (k : Nat) : R p (if held = true then p.updatePipe k f else p) := by
    split
    · exact hone p k
    · exact hrefl p
  exact htrans (htrans (htrans (hdrop hwriter _ _ _) (hdrop hwriter _ _ _)) (hdrop hreader _ _ _))
    (hdrop hreader _ _ _)

theorem dropEnds_grows (x : Stream) (p : Plant) : p.Grows (dropEnds x p) :=
  dropEnds_induct .refl .trans (fun _ _ => .of_eq rfl rfl rfl) (fun _ _ => .of_eq rfl rfl rfl) x p

theorem destroy_of_destroyed (hfound : r.streams[s]? = some x) (hgone : x.destroyed = true) :
    r.destroy s = r := by
  simp only [destroy, hfound, hgone, if_true]

/-- Apart from the routes, the first call changes the plant and the one stream. -/
theorem destroy_eq (hfound : r.streams[s]? = some x) (hlive : x.destroyed = false) :
    ∃ router, r.destroy s = { r with
      router := router
      plant := dropEnds x ((r.plant.cancel x.closed).updatePipes x.pipes Pipe.close)
      streams := r.streams.modify s Stream.ended } := by
  simp only [destroy, hfound, hlive, Bool.false_eq_true, if_false, unregisterRoutes, updateStream,
    List.modify_modify_eq]
  exact ⟨_, rfl⟩

theorem destroyed_destroy (hfound : r.streams[s]? = some x) :
    ∃ x' : Stream, (r.destroy s).streams[s]? = some x' ∧ x'.destroyed = true := by
  cases hlive : x.destroyed with
  | true =>
    rw [destroy_of_destroyed hfound hlive]
    exact ⟨x, hfound, hlive⟩
  | false =>
    obtain ⟨router, heq⟩ := destroy_eq hfound hlive
    refine ⟨x.ended, ?_, rfl⟩
    simp only [heq, List.getElem?_modify_eq, hfound]
    rfl

theorem Drifts.destroy (r : Registry) (s : Nat) : r.Drifts (r.destroy s) := by
  cases hfound : r.streams[s]? with
  | none =>
    simp only [Registry.destroy, hfound]
    exact .refl r
  | some x =>
    cases hlive : x.destroyed with
    | true =>
      rw [destroy_of_destroyed hfound hlive]
      exact .refl r
    | false =>
      -- Pipes and ends go after the token was cancelled, so the plant only grows from there on.
      have hrest := (Grows.updatePipes (r.plant.cancel x.closed) x.pipes Pipe.close).trans
        (dropEnds_grows x _)
      obtain ⟨router, heq⟩ := destroy_eq hfound hlive
      rw [heq]
      refine ⟨.modify, .modify (.trans (.cancel _ _) hrest) ?_⟩
      intro y hs
      obtain rfl : x = y := Option.some.inj (hfound.symm.trans hs)
      exact .ended hrest

theorem Drifts.teardown (r : Registry) (t : Teardown) : r.Drifts (r.teardown t) := by
  cases t with
  | destroy s => exact .destroy r s
  | cancel token => exact .plants (.cancel _ _)

theorem Drifts.teardowns (r : Registry) (ts : List Teardown) :
    r.Drifts (ts.foldl Registry.teardown r) := by
  induction ts generalizing r with
  | nil => exact .refl r
  | cons t ts ih => exact (Drifts.teardown r t).trans (ih _)

/-! ### Tasks -/

theorem Drifts.stepPlant {t : Plant.Task} (h : r.step (.plant t) = some r') : r.Drifts r' := by
  obtain ⟨p, hstepped, rfl⟩ := Option.map_eq_some_iff.mp h
  exact .plants (.step hstepped)

/-- A track is piped from here on: the plant, and the fan-out that reads it. The fan-out gets the
writing end of its side if that is still there. -/
def beginPiping (p : Plant) (x : Stream) (q : Piping) : Plant × Nat :=
  (p.linkToken q.token x.closed).1.pipeTrack q.codec (p.linkToken q.token x.closed).2 q.source
    (x.tracks.get (sideOf q.codec)).isSome
    (if x.writers.get (sideOf q.codec) then some (x.pipes.get (sideOf q.codec)) else none)

/-- What one step of a piping can be. -/
inductive PipingStep (r : Registry) (k : Nat) (q : Piping) (x : Stream) : Registry → Prop where
  | begin (hcalled : q.phase = .called) : PipingStep r k q x { r with
      plant := (beginPiping r.plant x q).1
      pipings := r.pipings.set k { q with phase := .running (beginPiping r.plant x q).2 }
      streams := r.streams.modify q.stream fun y =>
        { y with writers := y.writers.set (sideOf q.codec) false } }
  | finished {fan : Nat} (hrunning : q.phase = .running fan) :
    PipingStep r k q x { r with pipings := r.pipings.set k { q with phase := .returned } }

theorem stepPiping_cases {k : Nat} (h : r.stepPiping k = some r') :
    ∃ q x, r.pipings[k]? = some q ∧ r.streams[q.stream]? = some x ∧ PipingStep r k q x r' := by
  simp only [stepPiping, Option.bind_eq_bind, Option.bind_eq_some_iff] at h
  obtain ⟨q, hk, x, hstream, h⟩ := h
  refine ⟨q, x, hk, hstream, ?_⟩
  split at h
  case h_1 hcalled =>
    cases h
    exact .begin hcalled
  case h_2 hrunning =>
    split at h <;> cases h
    exact .finished hrunning
  case h_3 => cases h

theorem Drifts.stepPiping {k : Nat} (h : r.stepPiping k = some r') : r.Drifts r' := by
  obtain ⟨q, x, -, -, hstep⟩ := stepPiping_cases h
  cases hstep with
  | begin =>
    -- The track takes the writing end of its side, which concerns no consumer.
    exact .of_touch .modify ((Grows.linkToken _ _ _).trans (.pipeTrack _ _ _ _ _ _)) rfl
      (fun _ => rfl) (fun _ => rfl) fun _ => rfl
  | finished => exact ⟨⟨rfl, rfl, rfl, rfl, rfl, rfl⟩, .of_grows (.refl _) _⟩

end Registry

end Headend.Ingest
