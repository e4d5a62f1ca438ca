import Headend.Proofs.Ingest.History

/-!
# Routes come and go

A run that starts registers a route for each processor of its stream, one after another (`Enrols`).
They are removed when the run is over or when the stream ends, whichever comes first. A stream
`Fades`: it keeps its routes, or gives up all of them for good. Whatever ends it `Clears` its own
routes and no other.
-/

namespace Headend

/-! ## Several registrations at once -/

namespace Hls.Router

variable {π : Type}

def unregisterAll (r : Router π) (ids : List Nat) : Router π :=
  ids.foldl (fun router id => (router.unregister id).1) r

theorem unregisterAll_nextId (r : Router π) (ids : List Nat) :
    (r.unregisterAll ids).nextId = r.nextId := by
  induction ids generalizing r with
  | nil => rfl
  | cons id ids ih => exact (ih _).trans (r.unregister_nextId id)

/-- The active registration is removed if it is one of them. -/
theorem unregisterAll_active {r : Router π} {ids : List Nat} {a : Nat × π} :
    (r.unregisterAll ids).active = some a ↔ r.active = some a ∧ a.1 ∉ ids := by
  induction ids generalizing r with
  | nil => simp [unregisterAll]
  | cons id ids ih =>
    rw [unregisterAll, List.foldl_cons, ← unregisterAll, ih, unregister_active, List.mem_cons,
      not_or, and_assoc]

end Hls.Router

namespace Ingest

open Hls Plant

/-! ## What the end of a stream clears -/

/-- What may become of a stream while no run starts on it: it keeps its routes, or they are removed
for good. -/
structure Stream.Fades (x x' : Stream) : Prop where
  routed : x'.routed = x.routed
  processors : x'.processors.length = x.processors.length
  state : x'.destroyed = x.destroyed ∧ x'.readers = x.readers ∧ x'.routes = x.routes
    ∨ x'.destroyed = true ∧ x'.readers = false ∧ x'.routes = []

namespace Stream.Fades

variable {x x' x'' : Stream}

theorem refl (x : Stream) : x.Fades x := ⟨rfl, rfl, .inl ⟨rfl, rfl, rfl⟩⟩

theorem ended (x : Stream) : x.Fades x.ended := ⟨rfl, List.length_map _, .inr ⟨rfl, rfl, rfl⟩⟩

theorem trans (hf : x.Fades x') (hf' : x'.Fades x'') : x.Fades x'' where
  routed := hf'.routed.trans hf.routed
  processors := hf'.processors.trans hf.processors
  state := by
    obtain ⟨hdestroyed', hreaders', hroutes'⟩ | hgone := hf'.state
    · rw [hdestroyed', hreaders', hroutes']
      exact hf.state
    · exact .inr hgone

theorem live (hf : x.Fades x') (hlive : x'.destroyed = false) : x.destroyed = false
    ∧ x'.readers = x.readers ∧ x'.routes = x.routes := by
  obtain ⟨hdestroyed, hrest⟩ | ⟨hgone, -⟩ := hf.state
  · exact ⟨hdestroyed.symm.trans hlive, hrest⟩
  · rw [hgone] at hlive
    cases hlive

theorem readers (hf : x.Fades x') (hheld : x'.readers = true) :
    x.readers = true ∧ x'.destroyed = x.destroyed := by
  obtain ⟨hdestroyed, hreaders, -⟩ | ⟨-, hspent, -⟩ := hf.state
  · exact ⟨hreaders.symm.trans hheld, hdestroyed⟩
  · rw [hspent] at hheld
    cases hheld

theorem routes (hf : x.Fades x') {id : Nat} (hmem : id ∈ x'.routes) : id ∈ x.routes
    ∧ x'.destroyed = x.destroyed ∧ x'.readers = x.readers := by
  obtain ⟨hdestroyed, hreaders, hroutes⟩ | ⟨-, -, hnone⟩ := hf.state
  · exact ⟨hroutes ▸ hmem, hdestroyed, hreaders⟩
  · rw [hnone] at hmem
    cases hmem

end Stream.Fades

namespace Registry

variable {r r' r'' : Registry} {s k : Nat} {x x' : Stream} {run : Run} {a : Active} {id : Nat}
  {target : Target}

/-- No route is registered, and the routes that are removed are those of streams that give up all
their routes. -/
structure Clears (r r' : Registry) : Prop where
  runs : r'.runs = r.runs
  nextId : r'.router.nextId = r.router.nextId
  size : r'.streams.length = r.streams.length
  streams : ∀ (s : Nat) (x : Stream), r.streams[s]? = some x →
    ∃ x' : Stream, r'.streams[s]? = some x' ∧ x.Fades x'
  old : ∀ id target, r'.router.active = some (id, target) → r.router.active = some (id, target)
  kept : ∀ id target, r.router.active = some (id, target) →
    r'.router.active = some (id, target) ∨ ∃ (s : Nat) (x x' : Stream), r.streams[s]? = some x
      ∧ id ∈ x.routes ∧ r'.streams[s]? = some x' ∧ x'.destroyed = true
  cleared : ∀ (s : Nat) (x x' : Stream) (id : Nat) (target : Target), r.streams[s]? = some x →
    id ∈ x.routes → r'.streams[s]? = some x' → id ∉ x'.routes → r'.router.active ≠ some (id, target)

namespace Clears

/-- Router, streams and runs are left alone. -/
theorem of_eq (hrouter : r'.router = r.router) (hstreams : r'.streams = r.streams)
    (hruns : r'.runs = r.runs) : Clears r r' where
  runs := hruns
  nextId := hrouter ▸ rfl
  size := congrArg _ hstreams
  streams s x hfound := ⟨x, hstreams ▸ hfound, .refl x⟩
  old id target hactive := hrouter ▸ hactive
  kept id target hactive := .inl (hrouter ▸ hactive)
  cleared s x x' id target hfound hmem hfound' hgone := by
    rw [hstreams, hfound] at hfound'
    exact absurd (Option.some.inj hfound' ▸ hmem) hgone

theorem refl (r : Registry) : Clears r r := .of_eq rfl rfl rfl

/-- Every stream afterwards was one before. -/
theorem before (hc : Clears r r') (hfound' : r'.streams[s]? = some x') :
    ∃ x : Stream, r.streams[s]? = some x ∧ x.Fades x' := by
  have hbound : s < r.streams.length := hc.size ▸ (List.getElem?_eq_some_iff.mp hfound').1
  have hfound : r.streams[s]? = some r.streams[s] := List.getElem?_eq_getElem hbound
  obtain ⟨y, hs, hfades⟩ := hc.streams s _ hfound
  obtain rfl := Option.some.inj (hs.symm.trans hfound')
  exact ⟨_, hfound, hfades⟩

theorem trans (hc : Clears r r') (hc' : Clears r' r'') : Clears r r'' where
  runs := hc'.runs.trans hc.runs
  nextId := hc'.nextId.trans hc.nextId
  size := hc'.size.trans hc.size
  streams s x hfound := by
    obtain ⟨x', hfound', hfades⟩ := hc.streams s x hfound
    obtain ⟨x'', hfound'', hfades'⟩ := hc'.streams s x' hfound'
    exact ⟨x'', hfound'', hfades.trans hfades'⟩
  old id target hactive := hc.old id target (hc'.old id target hactive)
  kept id target hactive := by
    obtain hactive' | ⟨s, x, x', hfound, hmem, hfound', hgone⟩ := hc.kept id target hactive
    · obtain hactive'' | ⟨s, x', x'', hfound', hmem, hfound'', hgone⟩ := hc'.kept id target hactive'
      · exact .inl hactive''
      · obtain ⟨x, hfound, hfades⟩ := hc.before hfound'
        exact .inr ⟨s, x, x'', hfound, (hfades.routes hmem).1, hfound'', hgone⟩
    · obtain ⟨x'', hfound'', hfades⟩ := hc'.streams s x' hfound'
      refine .inr ⟨s, x, x'', hfound, hmem, hfound'', Bool.eq_false_imp_eq_true.mp fun hlive => ?_⟩
      exact absurd hgone (Bool.eq_false_iff.mp (hfades.live hlive).1)
  cleared s x x'' id target hfound hmem hfound'' hgone hactive := by
    obtain ⟨x', hfound', hfades⟩ := hc.streams s x hfound
    by_cases hkept : id ∈ x'.routes
    · exact hc'.cleared s x' x'' id target hfound' hkept hfound'' hgone hactive
    · exact hc.cleared s x x' id target hfound hmem hfound' hkept (hc'.old id target hactive)

/-- A stream is changed in what does not concern its routes. -/
theorem touch {f : Stream → Stream} (hrouter : r'.router = r.router) (hruns : r'.runs = r.runs)
    (hstreams : r'.streams = r.streams.modify s f) (hfades : ∀ x : Stream, x.Fades (f x))
    (hroutes : ∀ x : Stream, (f x).routes = x.routes) : Clears r r' where
  runs := hruns
  nextId := hrouter ▸ rfl
  size := hstreams ▸ List.length_modify _ _ _
  streams t x hfound := by
    rw [hstreams, List.getElem?_modify, hfound]
    refine ⟨_, rfl, ?_⟩
    split
    · exact hfades x
    · exact .refl x
  old id target hactive := hrouter ▸ hactive
  kept id target hactive := .inl (hrouter ▸ hactive)
  cleared t x x' id target hfound hmem hfound' hgone := by
    rw [hstreams, List.getElem?_modify, hfound] at hfound'
    obtain rfl := Option.some.inj hfound'
    refine absurd ?_ hgone
    split
    · exact hroutes x ▸ hmem
    · exact hmem

end Clears

theorem unregisterRoutes_eq (hfound : r.streams[s]? = some x) : r.unregisterRoutes s = { r with
    router := r.router.unregisterAll x.routes
    streams := r.streams.modify s fun x => { x with routes := [] } } := by
  simp only [unregisterRoutes, hfound]
  rfl

theorem destroy_streams_of_ne (r : Registry) {t : Nat} (hne : t ≠ s) :
    (r.destroy s).streams[t]? = r.streams[t]? := by
  cases hfound : r.streams[s]? with
  | none => simp only [Registry.destroy, hfound]
  | some x =>
  cases hlive : x.destroyed with
  | true => rw [destroy_of_destroyed hfound hlive]
  | false =>
    obtain ⟨router, heq⟩ := destroy_eq hfound hlive
    rw [heq]
    exact List.getElem?_modify_ne _ _ hne.symm

theorem Clears.destroy (r : Registry) (s : Nat) : Clears r (r.destroy s) := by
  cases hfound : r.streams[s]? with
  | none =>
    simp only [Registry.destroy, hfound]
    exact .refl r
  | some x =>
  cases hlive : x.destroyed with
  | true =>
    rw [destroy_of_destroyed hfound hlive]
    exact .refl r
  | false =>
    obtain ⟨router, heq⟩ := destroy_eq hfound hlive
    have hown : (r.destroy s).router = r.router.unregisterAll x.routes := by
      simp only [Registry.destroy, hfound, hlive, Bool.false_eq_true, if_false, unregisterRoutes,
        updateStream]
      rfl
    have hstreams : (r.destroy s).streams = r.streams.modify s Stream.ended := by rw [heq]
    have hended : (r.destroy s).streams[s]? = some x.ended := by
      rw [hstreams, List.getElem?_modify_eq, hfound]
      rfl
    constructor
    case runs => rw [heq]
    case nextId => rw [hown, Router.unregisterAll_nextId]
    case size => rw [hstreams, List.length_modify]
    case streams =>
      intro t y ht
      rw [hstreams, List.getElem?_modify, ht]
      refine ⟨_, rfl, ?_⟩
      split
      · exact .ended y
      · exact .refl y
    case old =>
      intro id target hactive
      rw [hown] at hactive
      exact (Router.unregisterAll_active.mp hactive).1
    case kept =>
      intro id target hactive
      by_cases hmem : id ∈ x.routes
      · exact .inr ⟨s, x, x.ended, hfound, hmem, hended, rfl⟩
      · exact .inl (hown ▸ Router.unregisterAll_active.mpr ⟨hactive, hmem⟩)
    case cleared =>
      intro t y y' id target ht hmem ht' hgone hactive
      rw [hown] at hactive
      by_cases hsame : s = t
      · subst hsame
        obtain rfl := Option.some.inj (hfound.symm.trans ht)
        exact (Router.unregisterAll_active.mp hactive).2 hmem
      · rw [hstreams, List.getElem?_modify_ne _ _ hsame, ht] at ht'
        exact hgone (Option.some.inj ht' ▸ hmem)

namespace Clears

theorem plants (r : Registry) (p : Plant) : Clears r { r with plant := p } := .of_eq rfl rfl rfl

theorem through : ThroughTeardown Clears where
  trans := .trans
  slot _ _ _ := .of_eq rfl rfl rfl
  cancel r _ := .plants r _
  destroy := .destroy

theorem stepPiping (h : r.stepPiping k = some r') : Clears r r' := by
  obtain ⟨q, x, -, -, hstep⟩ := stepPiping_cases h
  cases hstep with
  | begin => exact .touch rfl rfl rfl (fun _ => ⟨rfl, rfl, .inl ⟨rfl, rfl, rfl⟩⟩) fun _ => rfl
  | finished => exact .of_eq rfl rfl rfl

end Clears

/-! ## Runs that register routes -/

/-- The processors `i` to `i + n - 1` of a stream were offered to the routes, one after another. -/
structure Enrols (s i n : Nat) (r r' : Registry) : Prop where
  runs : r'.runs = r.runs
  nextId : r'.router.nextId = r.router.nextId + n
  size : r'.streams.length = r.streams.length
  idle : n = 0 → r'.router.active = r.router.active
  last : 0 < n → r'.router.active = some (r.router.nextId + (n - 1), .ofStream s (i + (n - 1)))
  others : ∀ j, j ≠ s → r'.streams[j]? = r.streams[j]?
  stream : ∀ x, r.streams[s]? = some x → ∃ x' : Stream, r'.streams[s]? = some x'
    ∧ x'.destroyed = x.destroyed ∧ x'.readers = x.readers ∧ x'.routed = x.routed
    ∧ x'.processors.length = x.processors.length
    ∧ x'.routes = x.routes ++ List.range' r.router.nextId n

theorem Enrols.startProcessor (session i : Nat) (pipes : Sides Nat)
    (hfound : r.streams[s]? = some x)
    (hrouted : x.routed = true) (hbound : i < x.processors.length) :
    Enrols s i 1 r (r.startProcessor s session i pipes) := by
  have hprocessor : x.processors[i]? = some x.processors[i] := List.getElem?_eq_getElem hbound
  simp only [Registry.startProcessor, hfound, hprocessor, hrouted, if_true, updateStream,
    List.modify_modify_eq]
  constructor
  case runs => rfl
  case nextId => rfl
  case size => exact List.length_modify _ _ _
  case idle => exact fun hnone => absurd hnone Nat.one_ne_zero
  case last => exact fun _ => rfl
  case others => exact fun j hne => List.getElem?_modify_ne _ _ hne.symm
  case stream =>
    intro y hs
    obtain rfl := Option.some.inj (hfound.symm.trans hs)
    rw [List.getElem?_modify_eq, hfound]
    exact ⟨_, rfl, rfl, rfl, rfl, List.length_set, rfl⟩

theorem Enrols.startProcessors (session : Nat) (inputs : List (Sides Nat)) (i : Nat)
    (r : Registry) (x : Stream) (hfound : r.streams[s]? = some x) (hrouted : x.routed = true)
    (hbound : i + inputs.length ≤ x.processors.length) :
    Enrols s i inputs.length r
      ((inputs.zipIdx i).foldl (fun r (pipes, i) => r.startProcessor s session i pipes) r) := by
  induction inputs generalizing i r x with
  | nil =>
    constructor
    case stream => exact fun y hs => ⟨y, hs, rfl, rfl, rfl, rfl, by simp⟩
    case last => nofun
    all_goals simp
  | cons pipes inputs ih =>
    rw [List.length_cons, Nat.add_comm inputs.length, ← Nat.add_assoc] at hbound
    have hfirst := Enrols.startProcessor session i pipes hfound hrouted
      (Nat.lt_of_lt_of_le (Nat.lt_succ_self i) (Nat.le_trans (Nat.le_add_right _ _) hbound))
    obtain ⟨x₁, hfound₁, hdestroyed, hreaders, hrouted₁, hprocessors, hroutes⟩ :=
      hfirst.stream x hfound
    have hrest := ih (i + 1) _ x₁ hfound₁ (hrouted₁.trans hrouted) (hprocessors ▸ hbound)
    rw [List.zipIdx_cons, List.foldl_cons]
    constructor
    case runs => exact hrest.runs.trans hfirst.runs
    case nextId => rw [hrest.nextId, hfirst.nextId, List.length_cons, Nat.add_assoc, Nat.add_comm 1]
    case size => exact hrest.size.trans hfirst.size
    case idle => nofun
    case last =>
      intro _
      -- The last registration is the last of the rest, unless this was the only one.
      cases inputs with
      | nil => exact (hrest.idle rfl).trans (hfirst.last Nat.one_pos)
      | cons pipes' inputs =>
        rw [hrest.last (Nat.succ_pos _), hfirst.nextId]
        simp only [List.length_cons, Nat.add_sub_cancel]
        rw [Nat.add_assoc, Nat.add_assoc, Nat.add_comm 1]
    case others => exact fun j hne => (hrest.others j hne).trans (hfirst.others j hne)
    case stream =>
      intro y hs
      obtain rfl := Option.some.inj (hfound.symm.trans hs)
      obtain ⟨x₂, hfound₂, hdestroyed', hreaders', hrouted₂, hprocessors', hroutes'⟩ :=
        hrest.stream x₁ hfound₁
      refine ⟨x₂, hfound₂, hdestroyed'.trans hdestroyed, hreaders'.trans hreaders,
        hrouted₂.trans hrouted₁, hprocessors'.trans hprocessors, ?_⟩
      rw [hroutes', hroutes, hfirst.nextId, List.append_assoc, List.length_cons, List.range'_succ]
      rfl

/-- A run that starts registers all processors of its stream. -/
theorem startRun_enrols (hfound : r.streams[run.stream]? = some x) (hrouted : x.routed = true) :
    ∃ session, Enrols run.stream 0 x.processors.length
      { r with
        streams := r.streams.modify run.stream fun y => { y with readers := false }
        runs := r.runs.set k { run with session := some session, phase := .running } }
      (r.startRun k run x) := by
  let linked := (r.plant.linkToken run.token x.closed).1
  let session := r.plant.tokens.all.length
  let halves := linked.split x.processors.length session x.pipes
  let taken := updateStream { r with plant := halves.1 } run.stream fun y =>
    { y with readers := false }
  have hsplit : halves.2.length = x.processors.length := length_split _ _ _ _
  have hs : taken.streams[run.stream]? = some { x with readers := false } := by
    simp only [taken, updateStream, List.getElem?_modify_eq, hfound]
    rfl
  have henrols := Enrols.startProcessors session halves.2 0 taken _ hs hrouted
    (Nat.le_of_eq ((Nat.zero_add _).trans hsplit))
  rw [hsplit] at henrols
  refine ⟨session, ?_⟩
  exact {
    runs := congrArg (fun runs => List.set runs k _) henrols.runs
    nextId := henrols.nextId
    size := henrols.size
    idle := henrols.idle
    last := henrols.last
    others := henrols.others
    stream := henrols.stream }

end Registry

end Ingest

end Headend
