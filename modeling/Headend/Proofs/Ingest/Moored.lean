import Headend.Proofs.Ingest.History
import Headend.Proofs.Plant.Tether

/-!
# Streams and the tasks on their leash

The token and the pipes of a stream are the leash on which all tasks of its session run. `Moored` is
what holds of that in every history: whatever is started for a stream is put on its leash, and its
pipes are closed once it is destroyed.
-/

namespace Headend.Ingest

open Media Plant

/-! ## Streams and their leashes -/

namespace Stream

variable {p p' : Plant} {x x' : Stream}

def leash (x : Stream) : Leash := ⟨x.closed, x.pipes⟩

structure Moored (p : Plant) (x : Stream) : Prop where
  bound : ∀ side, x.pipes.get side < p.pipes.length
  shut : x.destroyed = true → ∀ side, (p.pipes.get (x.pipes.get side)).closed = true
  consumers : ∀ c ∈ x.consumers, ∃ token, p.Works c token ∧ x.leash.Holds p ⟨token, []⟩

theorem Moored.extend (h : x.Moored p) (he : p.Extends p') : x.Moored p' where
  bound side := Nat.lt_of_lt_of_le (h.bound side) he.pipes.size
  shut hgone side := he.pipes.closed _ (h.bound side) (h.shut hgone side)
  consumers c hmem := by
    obtain ⟨token, hworks, hholds⟩ := h.consumers c hmem
    exact ⟨token, he.works c token hworks, hholds.grow he.toGrows⟩

theorem Moored.of_eq (h : x.Moored p) (hleash : x'.leash = x.leash)
    (hdestroyed : x'.destroyed = x.destroyed) (hconsumers : x'.consumers = x.consumers) :
    x'.Moored p := by
  have hpipes : x'.pipes = x.pipes := congrArg Leash.pipes hleash
  constructor
  · exact hpipes ▸ h.bound
  · exact hdestroyed ▸ hpipes ▸ h.shut
  · exact hleash ▸ hconsumers ▸ h.consumers

theorem Moored.allocate (p : Plant) (policies : List Policy) (routed : Bool) :
    (allocate p policies routed).2.Moored (allocate p policies routed).1 where
  bound side := by cases side <;> simp [Stream.allocate, addPipe, freshToken, Sides.get]
  shut := nofun
  consumers c hmem := by
    rw [allocate_consumers] at hmem
    cases hmem

end Stream

namespace Registry

variable {r r' r'' : Registry} {s k : Nat} {x : Stream} {run : Run} {as : List Act}
  {failFast : Bool}

def leashes (r : Registry) : List Leash := r.streams.map Stream.leash

theorem leash_mem (hfound : r.streams[s]? = some x) : x.leash ∈ r.leashes :=
  List.mem_map_of_mem (List.mem_of_getElem? hfound)

structure Moored (r : Registry) : Prop where
  plant : r.plant.Tethered r.leashes
  distinct : (r.leashes.map Leash.closed).Nodup
  streams : ∀ (s : Nat) (x : Stream), r.streams[s]? = some x → x.Moored r.plant
  pipings : ∀ q ∈ r.pipings, ∀ fan, q.phase = .running fan → ∃ l f, r.leashes[q.stream]? = some l
    ∧ r.plant.fans[fan]? = some f ∧ l.Holds r.plant f.post

/-! ## What starts no task -/

/-- The tasks are the same, and so are the leashes. -/
structure Steady (r r' : Registry) : Prop where
  plant : r.plant.Carries r'.plant
  leashes : r'.leashes = r.leashes
  streams : ∀ (s : Nat) (x' : Stream), r'.streams[s]? = some x' →
    ∃ x, r.streams[s]? = some x ∧ (x.Moored r.plant → x'.Moored r'.plant)
  pipings : r'.pipings = r.pipings

namespace Steady

theorem trans (h : Steady r r') (h' : Steady r' r'') : Steady r r'' where
  plant := h.plant.trans h'.plant
  leashes := h'.leashes.trans h.leashes
  streams s x'' hfound'' := by
    obtain ⟨x', hfound', hmoored'⟩ := h'.streams s x'' hfound''
    obtain ⟨x, hfound, hmoored⟩ := h.streams s x' hfound'
    exact ⟨x, hfound, hmoored' ∘ hmoored⟩
  pipings := h'.pipings.trans h.pipings

theorem of_streams (hplant : r.plant.Carries r'.plant) (hstreams : r'.streams = r.streams)
    (hpipings : r'.pipings = r.pipings) : Steady r r' where
  plant := hplant
  leashes := by rw [Registry.leashes, hstreams, ← Registry.leashes]
  streams s x hfound := ⟨x, hstreams ▸ hfound, fun h => h.extend hplant.toExtends⟩
  pipings := hpipings

theorem plants {p : Plant} (hc : r.plant.Carries p) : Steady r { r with plant := p } :=
  .of_streams hc rfl rfl

/-- One stream changes, and keeps its leash. -/
theorem modify {f : Stream → Stream} (hplant : r.plant.Carries r'.plant)
    (hstreams : r'.streams = r.streams.modify s f) (hpipings : r'.pipings = r.pipings)
    (hleash : ∀ x, (f x).leash = x.leash)
    (hmoored : ∀ x, r.streams[s]? = some x → x.Moored r.plant → (f x).Moored r'.plant) :
    Steady r r' where
  plant := hplant
  leashes := by
    apply List.ext_getElem?
    intro i
    rw [Registry.leashes, Registry.leashes, hstreams, List.getElem?_map, List.getElem?_map,
      List.getElem?_modify]
    cases r.streams[i]? with
    | none => rfl
    | some x =>
      simp only [Option.map_eq_map, Option.map_some]
      split
      · rw [hleash]
      · rfl
  streams i x' hfound' := by
    rw [hstreams, List.getElem?_modify] at hfound'
    obtain ⟨x, hfound, heq⟩ := Option.map_eq_some_iff.mp hfound'
    refine ⟨x, hfound, fun h => ?_⟩
    split at heq
    case isTrue hsame =>
      subst hsame
      exact heq ▸ hmoored x hfound h
    case isFalse => exact heq ▸ h.extend hplant.toExtends
  pipings := hpipings

/-- One stream changes in what does not concern its tasks. -/
theorem touch {f : Stream → Stream} (hplant : r'.plant = r.plant)
    (hstreams : r'.streams = r.streams.modify s f) (hpipings : r'.pipings = r.pipings)
    (hleash : ∀ x, (f x).leash = x.leash) (hdestroyed : ∀ x, (f x).destroyed = x.destroyed)
    (hconsumers : ∀ x, (f x).consumers = x.consumers) : Steady r r' :=
  .modify (hplant ▸ .refl _) hstreams hpipings hleash fun x _ h =>
    hplant ▸ h.of_eq (hleash x) (hdestroyed x) (hconsumers x)

theorem unregisterRoutes (r : Registry) (s : Nat) : Steady r (r.unregisterRoutes s) := by
  simp only [Registry.unregisterRoutes]
  split
  · exact .of_streams (.refl _) rfl rfl
  · exact .touch rfl rfl rfl (fun _ => rfl) (fun _ => rfl) fun _ => rfl

theorem dropEnds_keeps (x : Stream) (p : Plant) : p.Carries (dropEnds x p) :=
  dropEnds_induct .refl .trans (fun _ _ => .usePipes (.update _ _ fun _ => id))
    (fun _ _ => .usePipes (.update _ _ fun _ => id)) x p

theorem destroy (r : Registry) (s : Nat) : Steady r (r.destroy s) := by
  cases hfound : r.streams[s]? with
  | none =>
    simp only [Registry.destroy, hfound]
    exact .of_streams (.refl _) rfl rfl
  | some x =>
  cases hlive : x.destroyed with
  | true =>
    rw [destroy_of_destroyed hfound hlive]
    exact .of_streams (.refl _) rfl rfl
  | false =>
    obtain ⟨router, heq⟩ := destroy_eq hfound hlive
    have hcancelled := Carries.cancel r.plant x.closed
    have hclosed := Carries.closePipes (r.plant.cancel x.closed) x.pipes
    have hdropped := dropEnds_keeps x ((r.plant.cancel x.closed).updatePipes x.pipes Pipe.close)
    rw [heq]
    refine .modify ((hcancelled.trans hclosed).trans hdropped) rfl rfl (fun _ => rfl) ?_
    intro y hs h
    obtain rfl := Option.some.inj (hfound.symm.trans hs)
    have hextended := h.extend ((hcancelled.trans hclosed).trans hdropped).toExtends
    -- The pipes are closed before the ends are dropped.
    refine ⟨hextended.bound, fun _ side => ?_, x.consumers_ended ▸ hextended.consumers⟩
    have hbound : x.pipes.get side
        < ((r.plant.cancel x.closed).updatePipes x.pipes Pipe.close).pipes.length :=
      Nat.lt_of_lt_of_le (h.bound side) hclosed.pipes.size
    exact hdropped.pipes.closed _ hbound (closed_updatePipes_close _ _ side (h.bound side))

theorem through : ThroughTeardown Steady where
  trans := .trans
  slot _ _ _ := .of_streams (.refl _) rfl rfl
  cancel _ _ := .plants (.cancel _ _)
  destroy := .destroy

theorem finishRun (r : Registry) (k : Nat) (run : Run) : Steady r (r.finishRun k run) := by
  have hreturned : Steady r { r with runs := r.runs.set k { run with phase := .returned } } :=
    .of_streams (.refl _) rfl rfl
  rw [Registry.finishRun]
  split
  · exact hreturned.trans (through.endSession _ run)
  · exact hreturned

end Steady

theorem Moored.steady (h : r.Moored) (hc : Steady r r') : r'.Moored where
  plant := hc.leashes ▸ h.plant.carry hc.plant
  distinct := hc.leashes ▸ h.distinct
  streams s x' hfound' := by
    obtain ⟨x, hfound, hmoored⟩ := hc.streams s x' hfound'
    exact hmoored (h.streams s x hfound)
  pipings q hmem fan hrunning := by
    obtain ⟨l, f, hleash, hfound, hholds⟩ := h.pipings q (hc.pipings ▸ hmem) fan hrunning
    obtain ⟨f', hheld⟩ := hc.plant.held hfound hholds
    exact ⟨l, f', hc.leashes ▸ hleash, hheld⟩

/-- New tasks are put on leashes. -/
theorem Moored.extend {p : Plant} (h : r.Moored) (he : r.plant.Extends p)
    (ht : p.Tethered r.leashes) : Moored { r with plant := p } where
  plant := ht
  distinct := h.distinct
  streams s x hfound := (h.streams s x hfound).extend he
  pipings q hmem fan hrunning := by
    obtain ⟨l, f, hleash, hfound, hholds⟩ := h.pipings q hmem fan hrunning
    obtain ⟨f', hheld⟩ := he.held hfound hholds
    exact ⟨l, f', hleash, hheld⟩

/-! ## What starts tasks -/

/-- A token that runs on the leash of a stream. -/
theorem holds_linkToken (p : Plant) (parent : Nat) (l : Leash) :
    l.Holds (p.linkToken parent l.closed).1 ⟨(p.linkToken parent l.closed).2, []⟩ where
  size := by simp [linkToken, childToken, Tokens.child]
  tied := ties_linkToken p parent l.closed
  targets := nofun

theorem Extends.linkToken (p : Plant) (parent watched : Nat) :
    p.Extends (p.linkToken parent watched).1 :=
  .of_fans (.linkToken p parent watched) (.refl _) rfl

theorem Moored.link (h : r.Moored) (hfound : r.streams[s]? = some x) (parent : Nat) :
    Moored { r with plant := (r.plant.linkToken parent x.closed).1 } :=
  h.extend (Extends.linkToken _ _ _) (h.plant.linkToken parent (leash_mem hfound))

/-! ### Runs -/

/-- A consumer that is called for a stream is put on its leash. -/
theorem Moored.startProcessor {l : Leash} {session : Nat} (i : Nat) (pipes : Sides Nat)
    (h : r.Moored) (hleash : r.leashes[s]? = some l) (hholds : l.Holds r.plant ⟨session, []⟩) :
    (r.startProcessor s session i pipes).Moored
      ∧ (r.startProcessor s session i pipes).leashes = r.leashes := by
  simp only [Registry.startProcessor]
  split
  · exact ⟨h, rfl⟩
  split
  · exact ⟨h, rfl⟩
  case h_2 x hfound _ q hi =>
    let registered : Registry := if x.routed = true then
      updateStream { r with router := (r.router.register (.ofStream s i)).1 } s fun y =>
        { y with routes := y.routes ++ [(r.router.register (.ofStream s i)).2] } else r
    let called : Registry := { registered with
      plant := (registered.plant.addConsumer (.new q.policy session true pipes)).1 }
    have hsteady : Steady r registered := by
      simp only [registered]
      split
      · exact .touch rfl rfl rfl (fun _ => rfl) (fun _ => rfl) fun _ => rfl
      · exact .of_streams (.refl _) rfl rfl
    have hleash' : registered.leashes[s]? = some l := hsteady.leashes ▸ hleash
    have hholds' : l.Holds registered.plant ⟨session, []⟩ := hholds.grow hsteady.plant.toGrows
    have hgrown := Grows.addConsumer registered.plant (.new q.policy session true pipes)
    have hworks := works_addConsumer registered.plant (.new q.policy session true pipes)
    have hmoored : called.Moored := (h.steady hsteady).extend (.of_fans hgrown (.refl _) rfl)
      ((h.steady hsteady).plant.addConsumer (List.mem_of_getElem? hleash') _ hholds')
    -- The stream gets the consumer, which works for the token.
    have hjoined : Steady called (updateStream called s fun y =>
        { y with
          processors :=
            y.processors.set i
              { q with consumer := some registered.plant.consumers.length } }) := by
      refine .modify (.refl _) rfl rfl (fun _ => rfl) ?_
      intro y hs h
      have hown : y.leash = l := by
        have hs : registered.streams[s]? = some y := hs
        rw [Registry.leashes, List.getElem?_map, hs] at hleash'
        exact Option.some.inj hleash'
      refine ⟨h.bound, h.shut, fun c hmem => ?_⟩
      obtain hold | rfl := mem_consumers_call hmem
      · exact h.consumers c hold
      · exact ⟨session, hworks, hown ▸ hholds'.grow hgrown⟩
    exact ⟨hmoored.steady hjoined, hjoined.leashes.trans hsteady.leashes⟩

theorem Moored.startProcessors {l : Leash} {session : Nat} (inputs : List (Sides Nat × Nat))
    (h : r.Moored) (hleash : r.leashes[s]? = some l) (hholds : l.Holds r.plant ⟨session, []⟩) :
    (inputs.foldl (fun r (pipes, i) => r.startProcessor s session i pipes) r).Moored := by
  induction inputs generalizing r with
  | nil => exact h
  | cons input inputs ih =>
    obtain ⟨hmoored, hleashes⟩ := h.startProcessor input.2 input.1 hleash hholds
    have hgrown := (Hires.startProcessor s session input.2 input.1 r).plant
    exact ih hmoored (hleashes ▸ hleash) (hholds.grow hgrown)

theorem leash_at (hfound : r.streams[s]? = some x) : r.leashes[s]? = some x.leash := by
  rw [leashes, List.getElem?_map, hfound, Option.map_some]

theorem Moored.startRun (h : r.Moored) (hfound : r.streams[run.stream]? = some x) :
    (r.startRun k run x).Moored := by
  let linked := (r.plant.linkToken run.token x.closed).1
  let session := (r.plant.linkToken run.token x.closed).2
  let halves := linked.split x.processors.length session x.pipes
  let taken := updateStream { r with plant := halves.1 } run.stream fun y =>
    { y with readers := false }
  have hholds : x.leash.Holds linked ⟨session, []⟩ := holds_linkToken r.plant run.token x.leash
  have hlink : Moored { r with plant := linked } := h.link hfound run.token
  have hsplit : Moored { r with plant := halves.1 } :=
    hlink.extend (.split _ _ _ _) (hlink.plant.split (leash_mem hfound) _ _ hholds)
  have htouched : Steady { r with plant := halves.1 } taken :=
    .touch rfl rfl rfl (fun _ => rfl) (fun _ => rfl) fun _ => rfl
  have hleash : taken.leashes[run.stream]? = some x.leash := htouched.leashes ▸ leash_at hfound
  have hheld := hholds.grow (Extends.split linked x.processors.length session x.pipes).toGrows
  have hstaffed := (hsplit.steady htouched).startProcessors halves.2.zipIdx hleash hheld
  exact hstaffed.steady (.of_streams (.refl _) rfl rfl)

theorem Moored.stepRun (h : r.Moored) (hstep : r.stepRun k = some r') : r'.Moored := by
  obtain ⟨run, x, -, hfound, hstep⟩ := stepRun_cases hstep
  cases hstep with
  | start hcalled hreaders => exact h.startRun hfound
  | refused hcalled hreaders => exact (h.link hfound run.token).steady (.finishRun _ _ _)
  | finished hrunning hown hcancelled hreturned =>
    exact h.steady ((Steady.unregisterRoutes r run.stream).trans (.finishRun _ _ _))

/-! ### Pipings -/

theorem Moored.pipings_set {q : Piping} (h : r.Moored)
    (hheld : ∀ fan, q.phase = .running fan → ∃ l f, r.leashes[q.stream]? = some l
      ∧ r.plant.fans[fan]? = some f ∧ l.Holds r.plant f.post) :
    Moored { r with pipings := r.pipings.set k q } where
  plant := h.plant
  distinct := h.distinct
  streams := h.streams
  pipings q' hmem fan hrunning := by
    obtain hold | rfl := List.mem_or_eq_of_mem_set hmem
    · exact h.pipings q' hold fan hrunning
    · exact hheld fan hrunning

theorem Moored.stepPiping (h : r.Moored) (hstep : r.stepPiping k = some r') : r'.Moored := by
  obtain ⟨q, x, -, hfound, hstep⟩ := stepPiping_cases hstep
  cases hstep with
  | begin hcalled =>
    let linked := (r.plant.linkToken q.token x.closed).1
    let token := (r.plant.linkToken q.token x.closed).2
    let side := sideOf q.codec
    let target := if x.writers.get side then some (x.pipes.get side) else none
    let piped := linked.pipeTrack q.codec token q.source (x.tracks.get side).isSome target
    have hown : target = none ∨ ∃ side, target = some (x.leash.pipes.get side) := by
      simp only [target]
      split
      · exact .inr ⟨side, rfl⟩
      · exact .inl rfl
    have hholds : x.leash.Holds linked ⟨token, []⟩ := holds_linkToken r.plant q.token x.leash
    have hlink : Moored { r with plant := linked } := h.link hfound q.token
    have htrack : Moored { r with plant := piped.1 } := hlink.extend (.pipeTrack _ _ _ _ _ _)
      (hlink.plant.pipeTrack (leash_mem hfound) _ _ _ hown hholds)
    obtain ⟨hlast, f, hfans, hworks⟩ := pipeTrack_fans linked q.codec token q.source
      (x.tracks.get side).isSome target
    have hstarted : Moored { r with
        plant := piped.1
        pipings := r.pipings.set k { q with phase := .running piped.2 } } := by
      apply htrack.pipings_set
      rintro fan ⟨⟩
      refine ⟨x.leash, f, leash_at hfound, ?_, ?_⟩
      · have hend : piped.1.fans[linked.fans.length]? = some f := by
          rw [hfans]
          exact List.getElem?_concat_length
        exact hlast ▸ hend
      · have hpost : f.post = ⟨token, []⟩ := congrArg (Post.mk · []) hworks
        exact hpost ▸ hholds.grow (Extends.pipeTrack _ _ _ _ _ _).toGrows
    exact hstarted.steady (.touch rfl rfl rfl (fun _ => rfl) (fun _ => rfl) fun _ => rfl)
  | finished =>
    apply h.pipings_set
    rintro fan ⟨⟩

/-! ### Sessions -/

/-- A new stream comes with a leash of its own. -/
theorem Moored.addStream (h : r.Moored) (policies : List Policy) (routed : Bool) :
    (r.addStream policies routed).1.Moored := by
  let new := Stream.allocate r.plant policies routed
  have hcarries : r.plant.Carries new.1 := ((Carries.freshToken r.plant).trans
    (.usePipes (.append _ [.new Pipe.defaultCapacity]))).trans
      (.usePipes (.append _ [.new Pipe.defaultCapacity]))
  have hleashes : (r.addStream policies routed).1.leashes = r.leashes ++ [new.2.leash] :=
    List.map_append
  constructor
  case plant =>
    rw [hleashes]
    exact (h.plant.carry hcarries).more (Stream.allocate_sealed r.plant policies routed).closed
  case distinct =>
    rw [hleashes, List.map_append]
    refine List.nodup_append.mpr ⟨h.distinct, List.pairwise_singleton _ _, ?_⟩
    -- The token is newer than all that close a stream already.
    intro t hmem t' hfresh hsame
    obtain ⟨l, hamong, rfl⟩ := List.mem_map.mp hmem
    have hsame : l.closed = r.plant.tokens.all.length := hsame.trans (List.mem_singleton.mp hfresh)
    exact Nat.ne_of_lt (h.plant.leashes l hamong) hsame
  case streams =>
    intro s x hfound
    obtain hold | hfresh := List.mem_append.mp (List.mem_of_getElem? hfound)
    · obtain ⟨i, hi⟩ := List.mem_iff_getElem?.mp hold
      exact (h.streams i x hi).extend hcarries.toExtends
    · rw [List.mem_singleton.mp hfresh]
      exact .allocate r.plant policies routed
  case pipings =>
    intro q hmem fan hrunning
    obtain ⟨l, f, hleash, hfound, hholds⟩ := h.pipings q hmem fan hrunning
    obtain ⟨f', hheld⟩ := hcarries.held hfound hholds
    have hbound := (List.getElem?_eq_some_iff.mp hleash).1
    exact ⟨l, f', hleashes ▸ (List.getElem?_append_left hbound).trans hleash, hheld⟩

theorem Moored.startSession (h : r.Moored) (parent : Nat)
    (allocation : Except String (List Policy)) : (r.startSession parent allocation).1.Moored := by
  have hsuperseded := h.steady (Steady.through.supersede r)
  cases allocation with
  | error reason => exact hsuperseded
  | ok policies =>
    let joined := (r.supersede.addStream policies true).1
    let forked := { joined with plant := (joined.plant.childToken parent).1 }
    let token := joined.plant.tokens.all.length
    have hentered : joined.Moored := hsuperseded.addStream policies true
    have hchild : Steady joined forked := .plants (.childToken joined.plant parent)
    -- After the trigger the tasks are run at once.
    have hadded : Steady forked ((forked.addTask (.destroy r.supersede.streams.length)).1.addTask
        (.cancel token)).1 :=
      (Steady.through.addTask _ _).trans (Steady.through.addTask _ _)
    exact hentered.steady ((hchild.trans hadded).trans (.of_streams (.refl _) rfl rfl))

/-! ## Every act -/

theorem Moored.new (failFast : Bool) : (new failFast).Moored where
  plant := .empty
  distinct := .nil
  streams := by
    intro s x hfound
    cases hfound
  pipings := nofun

theorem Moored.advance {e : Event} (h : r.Moored) (hadvanced : r.advance e = some r') :
    r'.Moored := by
  cases e with
  | start parent allocation => exact Option.some.inj hadvanced ▸ h.startSession parent allocation
  | trigger => exact h.steady (Option.some.inj hadvanced ▸ Steady.through.trigger r)
  | token parent =>
    cases parent with
    | none => exact h.steady (Option.some.inj hadvanced ▸ .plants (.freshToken _))
    | some parent => exact h.steady (Option.some.inj hadvanced ▸ .plants (.childToken _ parent))
  | cancel token => exact h.steady (Option.some.inj hadvanced ▸ .plants (.cancel _ token))
  | publish s track =>
    exact h.steady (Option.some.inj hadvanced ▸
      .touch rfl rfl rfl (fun _ => rfl) (fun _ => rfl) fun _ => rfl)
  | pipe s codec token source =>
    cases hadvanced
    refine ⟨h.plant, h.distinct, h.streams, fun q hmem fan hrunning => ?_⟩
    obtain hold | hnew := List.mem_append.mp hmem
    · exact h.pipings q hold fan hrunning
    · rw [List.mem_singleton.mp hnew] at hrunning
      cases hrunning
  | exit k =>
    obtain ⟨plant, hleft, rfl⟩ := Option.map_eq_some_iff.mp hadvanced
    exact h.steady (.plants (.exit hleft))
  | step t =>
    cases t with
    | plant t =>
      obtain ⟨plant, hstepped, rfl⟩ := Option.map_eq_some_iff.mp hadvanced
      exact h.steady (.plants (.step hstepped))
    | run k => exact h.stepRun hadvanced
    | piping k => exact h.stepPiping hadvanced

theorem Moored.act {a : Act} (h : r.Moored) (hacted : r.act a = some r') : r'.Moored := by
  cases a with
  | event e => exact h.advance hacted
  | destroy s => exact h.steady (Option.some.inj hacted ▸ .destroy r s)
  | read pipe size =>
    obtain ⟨plant, htaken, rfl⟩ := Option.map_eq_some_iff.mp hacted
    obtain ⟨data, q, hanswer, rfl⟩ := read_eq_some htaken
    exact h.steady (.plants (.usePipes (.set (Pipe.closed_of_read hanswer))))
  | hangUp pipe =>
    exact h.steady (Option.some.inj hacted ▸ .plants (.usePipes (.dropReader _ pipe)))

theorem Moored.perform (hperformed : (Registry.new failFast).perform as = some r) : r.Moored :=
  perform_invariant .act (.new failFast) hperformed

end Registry

end Headend.Ingest
