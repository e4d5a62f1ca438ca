import Headend.Proofs.Ingest.Routes

/-!
# Whose route is active

`Routed` is what holds of the router in every history. The registrations belong to the streams, no
two to one; a stream has some only while its run is at work; and as long as the stream of a run at
work is alive its last registration is the active one. Only one stream is alive at a time, which is
why no other run can register in between.
-/

namespace Headend.Ingest.Registry

open Hls Plant

variable {r r' : Registry} {s t k id : Nat} {x y : Stream} {run run' : Run} {as : List Act}
  {failFast : Bool} {target : Target}

structure Routed (r : Registry) : Prop where
  routed : ∀ (s : Nat) (x : Stream), r.streams[s]? = some x → x.routed = true
  fresh : ∀ (s : Nat) (x : Stream), r.streams[s]? = some x → ∀ id ∈ x.routes,
    id < r.router.nextId
  apart : ∀ (s t : Nat) (x y : Stream) (id : Nat), r.streams[s]? = some x →
    r.streams[t]? = some y → id ∈ x.routes → id ∈ y.routes → s = t
  active : ∀ (id : Nat) (target : Target), r.router.active = some (id, target) →
    ∃ s i x, target = .ofStream s i ∧ r.streams[s]? = some x ∧ id ∈ x.routes
      ∧ i < x.processors.length
  /-- A stream that has routes is alive, and the run that took its reading ends is at work. -/
  held : ∀ (s : Nat) (x : Stream), r.streams[s]? = some x → ∀ id ∈ x.routes,
    x.destroyed = false ∧ x.readers = false
      ∧ ∃ run, r.runs[s]? = some run ∧ run.phase = .running
  spent : ∀ (s : Nat) (x : Stream), r.streams[s]? = some x → x.readers = true →
    x.destroyed = false
  /-- The last processor of a live stream whose run is at work has the active route. -/
  latest : ∀ (s : Nat) (x : Stream) (run : Run), r.streams[s]? = some x → r.runs[s]? = some run →
    run.phase = .running → x.destroyed = false → 0 < x.processors.length →
    ∃ id ∈ x.routes, r.router.active = some (id, .ofStream s (x.processors.length - 1))

/-! ## The end of a stream -/

theorem Routed.clear (h : r.Routed) (hc : Clears r r') : r'.Routed where
  routed s x' hfound' := by
    obtain ⟨x, hfound, hfades⟩ := hc.before hfound'
    exact hfades.routed.trans (h.routed s x hfound)
  fresh s x' hfound' id hmem := by
    obtain ⟨x, hfound, hfades⟩ := hc.before hfound'
    exact hc.nextId ▸ h.fresh s x hfound id (hfades.routes hmem).1
  apart s t x' y' id hfound' ht' hmem hmem' := by
    obtain ⟨x, hfound, hfades⟩ := hc.before hfound'
    obtain ⟨y, ht, hfades'⟩ := hc.before ht'
    exact h.apart s t x y id hfound ht (hfades.routes hmem).1 (hfades'.routes hmem').1
  active id target hactive := by
    obtain ⟨s, i, x, rfl, hfound, hmem, hbound⟩ := h.active id target (hc.old id target hactive)
    obtain ⟨x', hfound', hfades⟩ := hc.streams s x hfound
    refine ⟨s, i, x', rfl, hfound', ?_, hfades.processors ▸ hbound⟩
    -- Had the stream given it up, it would not be active any more.
    apply Decidable.byContradiction
    intro hgone
    exact hc.cleared s x x' id _ hfound hmem hfound' hgone hactive
  held s x' hfound' id hmem := by
    obtain ⟨x, hfound, hfades⟩ := hc.before hfound'
    obtain ⟨hmem, hdestroyed, hreaders⟩ := hfades.routes hmem
    rw [hdestroyed, hreaders, hc.runs]
    exact h.held s x hfound id hmem
  spent s x' hfound' hreaders' := by
    obtain ⟨x, hfound, hfades⟩ := hc.before hfound'
    obtain ⟨hreaders, hdestroyed⟩ := hfades.readers hreaders'
    exact hdestroyed.trans (h.spent s x hfound hreaders)
  latest s x' run hfound' hs hrunning hlive' hsome := by
    obtain ⟨x, hfound, hfades⟩ := hc.before hfound'
    obtain ⟨hlive, hreaders, hroutes⟩ := hfades.live hlive'
    rw [hfades.processors] at hsome ⊢
    obtain ⟨id, hmem, hactive⟩ := h.latest s x run hfound (hc.runs ▸ hs) hrunning hlive hsome
    refine ⟨id, hroutes ▸ hmem, ?_⟩
    -- Only the end of its own stream could have removed it.
    obtain hkept | ⟨t, y, y', ht, hmem', ht', hgone⟩ := hc.kept id _ hactive
    · exact hkept
    · obtain rfl := h.apart s t x y id hfound ht hmem hmem'
      obtain rfl := Option.some.inj (hfound'.symm.trans ht')
      rw [hlive'] at hgone
      cases hgone

/-! ## The end of a run -/

/-- A stream whose reading ends nobody has taken has registered nothing. -/
theorem Routed.routes_of_readers (h : r.Routed) (hfound : r.streams[s]? = some x)
    (hreaders : x.readers = true) : x.routes = [] := by
  apply List.eq_nil_iff_forall_not_mem.mpr
  intro id hmem
  have htaken := (h.held s x hfound id hmem).2.1
  rw [hreaders] at htaken
  cases htaken

theorem Routed.routes_of_called (h : r.Routed) (hfound : r.streams[s]? = some x)
    (hs : r.runs[s]? = some run) (hcalled : run.phase = .called) : x.routes = [] := by
  apply List.eq_nil_iff_forall_not_mem.mpr
  intro id hmem
  obtain ⟨-, -, run', hs', hrunning⟩ := h.held s x hfound id hmem
  obtain rfl := Option.some.inj (hs.symm.trans hs')
  cases hcalled.symm.trans hrunning

/-- A stream without routes has none to remove. -/
theorem unregisterRoutes_of_none (hfound : r.streams[s]? = some x) (hnone : x.routes = []) :
    r.unregisterRoutes s = r := by
  have hsame : r.streams.modify s (fun x => { x with routes := [] }) = r.streams := by
    apply List.ext_getElem?
    intro t
    rw [List.getElem?_modify]
    split
    case isTrue hs =>
      have heta : ({ x with routes := [] } : Stream) = x := by rw [← hnone]
      rw [← hs, hfound]
      exact congrArg some heta
    case isFalse => exact congrFun Option.map_id _
  rw [unregisterRoutes_eq hfound, hnone, hsame]
  rfl

/-- A run returns and takes the routes of its stream with it. -/
theorem Routed.retire (run' : Run) (h : r.Routed) (hfound : r.streams[k]? = some x)
    (hk : r.runs[k]? = some run) (hreturned : run'.phase = .returned) :
    Routed { r.unregisterRoutes k with runs := r.runs.set k run' } := by
  have hsize : k < r.runs.length := (List.getElem?_eq_some_iff.mp hk).1
  have hstreams (s : Nat) (y : Stream)
      (hs : (r.unregisterRoutes k).streams[s]? = some y) :
      s = k ∧ y = { x with routes := [] } ∨ s ≠ k ∧ r.streams[s]? = some y := by
    by_cases hsame : s = k
    · rw [unregisterRoutes_eq hfound, hsame, List.getElem?_modify_eq, hfound] at hs
      exact .inl ⟨hsame, (Option.some.inj hs).symm⟩
    · exact .inr ⟨hsame, r.unregisterRoutes_streams_of_ne hsame ▸ hs⟩
  have hrouter : (r.unregisterRoutes k).router = r.router.unregisterAll x.routes := by
    rw [unregisterRoutes_eq hfound]
  constructor
  case routed =>
    intro s y hs
    obtain ⟨-, rfl⟩ | ⟨-, hs⟩ := hstreams s y hs
    · exact h.routed k x hfound
    · exact h.routed s y hs
  case fresh =>
    intro s y hs id hmem
    obtain ⟨-, rfl⟩ | ⟨-, hs⟩ := hstreams s y hs
    · cases hmem
    · have hnextId := (r.router.unregisterAll_nextId x.routes).symm
      exact hrouter ▸ hnextId ▸ h.fresh s y hs id hmem
  case apart =>
    intro s t y z id hs ht hmem hmem'
    obtain ⟨-, rfl⟩ | ⟨-, hs⟩ := hstreams s y hs
    · cases hmem
    obtain ⟨-, rfl⟩ | ⟨-, ht⟩ := hstreams t z ht
    · cases hmem'
    exact h.apart s t y z id hs ht hmem hmem'
  case active =>
    intro id target hactive
    rw [hrouter, Router.unregisterAll_active] at hactive
    obtain ⟨s, i, y, rfl, hs, hmem, hbound⟩ := h.active id target hactive.1
    have hne : s ≠ k := by
      rintro rfl
      obtain rfl := Option.some.inj (hfound.symm.trans hs)
      exact hactive.2 hmem
    exact ⟨s, i, y, rfl, (r.unregisterRoutes_streams_of_ne hne).trans hs, hmem, hbound⟩
  case held =>
    intro s y hs id hmem
    obtain ⟨-, rfl⟩ | ⟨hne, hs⟩ := hstreams s y hs
    · cases hmem
    · rw [List.getElem?_set_ne hne.symm]
      exact h.held s y hs id hmem
  case spent =>
    intro s y hs hreaders
    obtain ⟨-, rfl⟩ | ⟨-, hs⟩ := hstreams s y hs
    · exact h.spent k x hfound hreaders
    · exact h.spent s y hs hreaders
  case latest =>
    intro s y run₂ hs hruns hrunning hlive hsome
    obtain ⟨rfl, -⟩ | ⟨hne, hs⟩ := hstreams s y hs
    · rw [List.getElem?_set_self hsize] at hruns
      obtain rfl := Option.some.inj hruns
      cases hreturned.symm.trans hrunning
    · rw [List.getElem?_set_ne hne.symm] at hruns
      obtain ⟨id, hmem, hactive⟩ := h.latest s y run₂ hs hruns hrunning hlive hsome
      refine ⟨id, hmem, ?_⟩
      rw [hrouter, Router.unregisterAll_active]
      exact ⟨hactive, fun hmem' => hne (h.apart s k y x id hs hfound hmem hmem')⟩

theorem Routed.finish (run : Run) (h : r.Routed) (hfound : r.streams[k]? = some x)
    (hk : r.runs[k]? = some run') (hdrives : run.drives = true) :
    ((r.unregisterRoutes k).finishRun k run).Routed := by
  have hruns := (Drifts.unregisterRoutes r k).runs
  have hretired := h.retire { run with phase := .returned } hfound hk rfl
  rw [finishRun_of_drives hdrives, hruns]
  exact hretired.clear (Clears.through.endSession _ run)

/-! ## The beginning of a run -/

/-- A live stream is in the slot. -/
theorem Tidy.seat (h : r.Tidy) (hfound : r.streams[s]? = some x) (hlive : x.destroyed = false) :
    ∃ a, r.active = some a ∧ a.stream = s := by
  obtain ⟨token, y, run, ht⟩ := h.tended s (List.getElem?_eq_some_iff.mp hfound).1
  obtain rfl := Option.some.inj (hfound.symm.trans ht.stream)
  obtain ⟨tasks, hactive⟩ | ⟨hgone, -⟩ := ht.place
  · exact ⟨_, hactive, rfl⟩
  · cases hlive.symm.trans hgone

theorem Tidy.live_unique (h : r.Tidy) (hfound : r.streams[s]? = some x)
    (ht : r.streams[t]? = some y) (hlive : x.destroyed = false) (hlive' : y.destroyed = false) :
    s = t := by
  obtain ⟨a, hactive, rfl⟩ := h.seat hfound hlive
  obtain ⟨b, hactive', rfl⟩ := h.seat ht hlive'
  obtain rfl := Option.some.inj (hactive.symm.trans hactive')
  rfl

theorem Routed.start (h : r.Routed) (htidy : r.Tidy) (hfound : r.streams[run.stream]? = some x)
    (hk : r.runs[run.stream]? = some run) (hreaders : x.readers = true) :
    (r.startRun run.stream run x).Routed := by
  obtain ⟨session, he⟩ := startRun_enrols (k := run.stream) hfound (h.routed _ x hfound)
  have hsize : run.stream < r.runs.length := (List.getElem?_eq_some_iff.mp hk).1
  have hlive := h.spent _ x hfound hreaders
  have hnone := h.routes_of_readers hfound hreaders
  obtain ⟨x', hfound', hdestroyed', hreaders', hrouted', hprocessors', hroutes'⟩ :=
    he.stream { x with readers := false } (by rw [List.getElem?_modify_eq, hfound]; rfl)
  have hroutes' : x'.routes = List.range' r.router.nextId x.processors.length := by
    rw [hroutes', hnone]
    rfl
  have hothers (s : Nat) (hne : s ≠ run.stream) :
      (r.startRun run.stream run x).streams[s]? = r.streams[s]? :=
    (he.others s hne).trans (List.getElem?_modify_ne _ _ hne.symm)
  have hstreams (s : Nat) (y : Stream)
      (hs : (r.startRun run.stream run x).streams[s]? = some y) :
      s = run.stream ∧ y = x' ∨ s ≠ run.stream ∧ r.streams[s]? = some y := by
    by_cases hsame : s = run.stream
    · exact .inl ⟨hsame, Option.some.inj (hs.symm.trans (hsame ▸ hfound'))⟩
    · exact .inr ⟨hsame, (hothers s hsame).symm.trans hs⟩
  -- New routes have higher numbers than all before.
  have hnew (s : Nat) (y : Stream) (id : Nat) (hs : r.streams[s]? = some y)
      (hmem : id ∈ y.routes) : id ∉ x'.routes := by
    intro hmem'
    rw [hroutes', List.mem_range'_1] at hmem'
    exact Nat.not_lt.mpr hmem'.1 (h.fresh s y hs id hmem)
  have hrunning : ∃ run', (r.startRun run.stream run x).runs[run.stream]? = some run'
      ∧ run'.phase = .running := by
    rw [he.runs]
    exact ⟨_, List.getElem?_set_self hsize, rfl⟩
  constructor
  case routed =>
    intro s y hs
    obtain ⟨-, rfl⟩ | ⟨-, hs⟩ := hstreams s y hs
    · exact hrouted'.trans (h.routed _ x hfound)
    · exact h.routed s y hs
  case fresh =>
    intro s y hs id hmem
    rw [he.nextId]
    obtain ⟨-, rfl⟩ | ⟨-, hs⟩ := hstreams s y hs
    · rw [hroutes', List.mem_range'_1] at hmem
      exact hmem.2
    · exact Nat.lt_add_right _ (h.fresh s y hs id hmem)
  case apart =>
    intro s t y z id hs ht hmem hmem'
    obtain ⟨rfl, rfl⟩ | ⟨-, hs⟩ := hstreams s y hs <;>
      obtain ⟨rfl, rfl⟩ | ⟨-, ht⟩ := hstreams t z ht
    · rfl
    · exact absurd hmem (hnew t z id ht hmem')
    · exact absurd hmem' (hnew s y id hs hmem)
    · exact h.apart s t y z id hs ht hmem hmem'
  case active =>
    intro id target hactive
    obtain hzero | hpos := Nat.eq_zero_or_pos x.processors.length
    · obtain ⟨s, i, y, rfl, hs, hmem, hbound⟩ :=
        h.active id target ((he.idle hzero).symm.trans hactive)
      have hne : s ≠ run.stream := by
        rintro rfl
        obtain rfl := Option.some.inj (hfound.symm.trans hs)
        rw [hnone] at hmem
        cases hmem
      exact ⟨s, i, y, rfl, (hothers s hne).trans hs, hmem, hbound⟩
    · obtain ⟨rfl, rfl⟩ := Prod.mk.inj (Option.some.inj ((he.last hpos).symm.trans hactive))
      have hlast := Nat.sub_one_lt_of_lt hpos
      refine ⟨_, _, x', rfl, hfound', ?_, ?_⟩
      · rw [hroutes', List.mem_range'_1]
        exact ⟨Nat.le_add_right _ _, Nat.add_lt_add_left hlast _⟩
      · rw [Nat.zero_add, hprocessors']
        exact hlast
  case held =>
    intro s y hs id hmem
    obtain ⟨rfl, rfl⟩ | ⟨hne, hs⟩ := hstreams s y hs
    · exact ⟨hdestroyed'.trans hlive, hreaders', hrunning⟩
    · rw [he.runs, List.getElem?_set_ne hne.symm]
      exact h.held s y hs id hmem
  case spent =>
    intro s y hs hheld
    obtain ⟨-, rfl⟩ | ⟨-, hs⟩ := hstreams s y hs
    · exact hdestroyed'.trans hlive
    · exact h.spent s y hs hheld
  case latest =>
    intro s y run₂ hs hruns hrunning hlive' hpos
    obtain ⟨rfl, rfl⟩ | ⟨hne, hs⟩ := hstreams s y hs
    · rw [hprocessors'] at hpos ⊢
      have hactive := he.last hpos
      rw [Nat.zero_add] at hactive
      refine ⟨_, ?_, hactive⟩
      rw [hroutes', List.mem_range'_1]
      exact ⟨Nat.le_add_right _ _, Nat.add_lt_add_left (Nat.sub_one_lt_of_lt hpos) _⟩
    · exact absurd (htidy.live_unique hs hfound hlive' hlive) hne

theorem Routed.stepRun (h : r.Routed) (htidy : r.Tidy) (hstep : r.stepRun k = some r') :
    r'.Routed := by
  obtain ⟨run, x, hk, hfound, hstep⟩ := stepRun_cases hstep
  obtain ⟨token, y, ht⟩ := htidy.tends hk
  have hdrives := ht.driven.drives
  obtain rfl := ht.driven.stream
  cases hstep with
  | start hcalled hreaders => exact h.start htidy hfound hk hreaders
  | refused hcalled hreaders =>
    have hnone := h.routes_of_called hfound hk hcalled
    have hlinked := h.clear (.plants r (r.plant.linkToken run.token x.closed).1)
    have hfinished := hlinked.finish { run with
      session := some (r.plant.linkToken run.token x.closed).2 } hfound hk hdrives
    have hunchanged := unregisterRoutes_of_none (r := { r with
      plant := (r.plant.linkToken run.token x.closed).1 }) hfound hnone
    rw [hunchanged] at hfinished
    exact hfinished
  | finished hrunning hown hcancelled hreturned => exact h.finish run hfound hk hdrives

/-! ## Every act -/

theorem Routed.new (failFast : Bool) : (new failFast).Routed := by
  have hempty (s : Nat) (x : Stream) : (Registry.new failFast).streams[s]? ≠ some x := nofun
  constructor
  case active => nofun
  all_goals
    intro s
    intros
    exact absurd ‹_› (hempty s _)

/-- A new stream has no routes, and its run has not started. -/
theorem Routed.enter (h : r.Routed) (hlengths : r.runs.length = r.streams.length) (plant : Plant)
    (hrouted : x.routed = true) (hlive : x.destroyed = false) (hnone : x.routes = [])
    (hcalled : run.phase = .called) : Routed { r with
      plant := plant, streams := r.streams ++ [x], runs := r.runs ++ [run] } := by
  have hstreams (s : Nat) (y : Stream) (hs : (r.streams ++ [x])[s]? = some y) :
      s < r.streams.length ∧ r.streams[s]? = some y ∨ s = r.streams.length ∧ y = x := by
    obtain hold | hnew := Nat.lt_or_ge s r.streams.length
    · exact .inl ⟨hold, (List.getElem?_append_left hold).symm.trans hs⟩
    · rw [List.getElem?_append_right hnew, List.getElem?_singleton] at hs
      split at hs
      case isTrue hfirst =>
        have hlast := Nat.le_antisymm (Nat.sub_eq_zero_iff_le.mp hfirst) hnew
        exact .inr ⟨hlast, (Option.some.inj hs).symm⟩
      case isFalse => cases hs
  have hold {s : Nat} (y : Stream) (id : Nat) (hs : (r.streams ++ [x])[s]? = some y)
      (hmem : id ∈ y.routes) : s < r.streams.length ∧ r.streams[s]? = some y := by
    obtain hold | ⟨-, rfl⟩ := hstreams s y hs
    · exact hold
    · rw [hnone] at hmem
      cases hmem
  constructor
  case routed =>
    intro s y hs
    obtain ⟨-, hs⟩ | ⟨-, rfl⟩ := hstreams s y hs
    · exact h.routed s y hs
    · exact hrouted
  case fresh => exact fun s y hs id hmem => h.fresh s y (hold y id hs hmem).2 id hmem
  case apart =>
    intro s t y z id hs ht hmem hmem'
    exact h.apart s t y z id (hold y id hs hmem).2 (hold z id ht hmem').2 hmem hmem'
  case active =>
    intro id target hactive
    obtain ⟨s, i, y, rfl, hs, hmem, hbound⟩ := h.active id target hactive
    have hsize := (List.getElem?_eq_some_iff.mp hs).1
    exact ⟨s, i, y, rfl, (List.getElem?_append_left hsize).trans hs, hmem, hbound⟩
  case held =>
    intro s y hs id hmem
    obtain ⟨hsize, hs⟩ := hold y id hs hmem
    rw [List.getElem?_append_left (hlengths ▸ hsize)]
    exact h.held s y hs id hmem
  case spent =>
    intro s y hs hreaders
    obtain ⟨-, hs⟩ | ⟨-, rfl⟩ := hstreams s y hs
    · exact h.spent s y hs hreaders
    · exact hlive
  case latest =>
    intro s y run₂ hs hruns hrunning halive hsome
    obtain ⟨hsize, hs⟩ | ⟨rfl, -⟩ := hstreams s y hs
    · rw [List.getElem?_append_left (hlengths ▸ hsize)] at hruns
      exact h.latest s y run₂ hs hruns hrunning halive hsome
    · rw [← hlengths, List.getElem?_concat_length] at hruns
      obtain rfl := Option.some.inj hruns
      cases hcalled.symm.trans hrunning

theorem Routed.startSession (h : r.Routed) (htidy : r.Tidy) (parent : Nat)
    (allocation : Except String (List Policy)) : (r.startSession parent allocation).1.Routed := by
  have hsuperseded := h.clear (Clears.through.supersede r)
  cases allocation with
  | error reason => exact hsuperseded
  | ok policies =>
    let joined := (r.supersede.addStream policies true).1
    let forked := { joined with plant := (joined.plant.childToken parent).1 }
    let token := joined.plant.tokens.all.length
    let called : Run := ⟨r.supersede.streams.length, token, none, true, .called⟩
    have hentered : Routed { forked with runs := forked.runs ++ [called] } :=
      hsuperseded.enter htidy.supersede.runs forked.plant rfl rfl rfl rfl
    -- After the trigger the tasks are run at once.
    have hadded : Clears forked ((forked.addTask (.destroy r.supersede.streams.length)).1.addTask
        (.cancel token)).1 := (Clears.through.addTask _ _).trans (Clears.through.addTask _ _)
    exact hentered.clear { hadded with runs := congrArg (· ++ [called]) hadded.runs }

theorem Routed.act {a : Act} (h : r.Routed) (hsound : r.Sound) (hacted : r.act a = some r') :
    r'.Routed := by
  cases a with
  | destroy s => exact h.clear (Option.some.inj hacted ▸ .destroy r s)
  | read pipe size =>
    obtain ⟨plant, -, rfl⟩ := Option.map_eq_some_iff.mp hacted
    exact h.clear (.plants r plant)
  | hangUp pipe => exact h.clear (Option.some.inj hacted ▸ .plants r _)
  | event e =>
    cases e with
    | start parent allocation =>
      exact Option.some.inj hacted ▸ h.startSession hsound.toTidy parent allocation
    | trigger => exact h.clear (Option.some.inj hacted ▸ Clears.through.trigger r)
    | token parent =>
      cases parent with
      | none => exact h.clear (Option.some.inj hacted ▸ .plants r _)
      | some parent => exact h.clear (Option.some.inj hacted ▸ .plants r _)
    | cancel token => exact h.clear (Option.some.inj hacted ▸ .plants r _)
    | publish s track =>
      exact h.clear (Option.some.inj hacted ▸ .touch rfl rfl rfl
        (fun _ => ⟨rfl, rfl, .inl ⟨rfl, rfl, rfl⟩⟩) fun _ => rfl)
    | pipe s codec token source => exact h.clear (Option.some.inj hacted ▸ .of_eq rfl rfl rfl)
    | exit k =>
      obtain ⟨plant, -, rfl⟩ := Option.map_eq_some_iff.mp hacted
      exact h.clear (.plants r plant)
    | step t =>
      cases t with
      | plant t =>
        obtain ⟨plant, -, rfl⟩ := Option.map_eq_some_iff.mp hacted
        exact h.clear (.plants r plant)
      | run k => exact h.stepRun hsound.toTidy hacted
      | piping k => exact h.clear (.stepPiping hacted)

/-! ## Teardown of another session -/

/-- The active route stays while its own stream is left alone. -/
theorem Routed.survives {i : Nat} (h : r.Routed) (hc : Clears r r')
    (hactive : r.router.active = some (id, .ofStream s i))
    (hsame : r'.streams[s]? = r.streams[s]?) : r'.router.active = r.router.active := by
  rw [hactive]
  obtain hkept | ⟨t, y, y', ht, hmem', ht', hgone⟩ := hc.kept id _ hactive
  · exact hkept
  obtain ⟨_, _, x, hown, hfound, hmem, -⟩ := h.active id _ hactive
  obtain ⟨rfl, rfl⟩ := Target.ofStream.inj hown
  obtain rfl := h.apart _ _ x y id hfound ht hmem hmem'
  obtain rfl := Option.some.inj (ht'.symm.trans (hsame.trans ht))
  cases (h.held _ y' ht id hmem').1.symm.trans hgone

theorem Routed.destroy_ne {i : Nat} (h : r.Routed)
    (hactive : r.router.active = some (id, .ofStream s i)) (hne : t ≠ s) :
    (r.destroy t).router.active = r.router.active :=
  h.survives (.destroy r t) hactive (destroy_streams_of_ne r hne.symm)

theorem Routed.finish_ne {i : Nat} (h : r.Routed) (htidy : r.Tidy)
    (hactive : r.router.active = some (id, .ofStream s i)) (hne : t ≠ s)
    (ht : r.runs[t]? = some run) (hstarted : run.phase ≠ .called)
    (hstep : r.stepRun t = some r') : r'.router.active = r.router.active := by
  obtain ⟨_, _, x, hown, hfound, hmem, -⟩ := h.active id _ hactive
  obtain ⟨rfl, rfl⟩ := Target.ofStream.inj hown
  obtain ⟨run', y, ht', hstream, hstep⟩ := stepRun_cases hstep
  obtain rfl := Option.some.inj (ht.symm.trans ht')
  obtain ⟨token, z, htends⟩ := htidy.tends ht
  have hdrives := htends.driven.drives
  obtain rfl := htends.driven.stream
  -- The stream of the active route is in the slot, so the run has nothing to release.
  obtain ⟨a, hseated, rfl⟩ := htidy.seat hfound (h.held _ x hfound id hmem).1
  cases hstep with
  | start hcalled hreaders => exact absurd hcalled hstarted
  | refused hcalled hreaders => exact absurd hcalled hstarted
  | finished hrunning hsession hcancelled hreturned =>
    have hd := Drifts.unregisterRoutes r run.stream
    have helsewhere : ∀ b, (r.unregisterRoutes run.stream).active = some b →
        b.stream ≠ run.stream := by
      intro b hoccupies
      obtain rfl := Option.some.inj (hseated.symm.trans (hd.active.symm.trans hoccupies))
      exact hne.symm
    have hretired := h.retire { run with phase := .returned } hstream ht rfl
    have hkept : (r.unregisterRoutes run.stream).router.active = r.router.active := by
      rw [unregisterRoutes_eq hstream, hactive, Router.unregisterAll_active]
      exact ⟨hactive, fun hmem' => hne (h.apart _ _ y x id hstream hfound hmem' hmem)⟩
    have hended := endSession_of_ne (r := { r.unregisterRoutes run.stream with
      runs := r.runs.set run.stream { run with phase := .returned } }) helsewhere
    rw [finishRun_of_drives hdrives, hd.runs, hended, ← hkept]
    refine hretired.survives ((Clears.plants _ _).trans (.destroy _ run.stream))
      (hkept.trans hactive) ?_
    exact destroy_streams_of_ne _ hne.symm

/-! ## In every history -/

theorem Routed.perform (hperformed : (Registry.new failFast).perform as = some r) :
    r.Sound ∧ r.Routed :=
  perform_invariant (P := fun r => r.Sound ∧ r.Routed)
    (fun h hacted => ⟨h.1.act hacted, h.2.act h.1 hacted⟩) ⟨.new failFast, .new failFast⟩ hperformed

/-- The active route leads to a live stream whose run is at work. While the stream in the slot has
processors and its run is at work, the active route is that of its last one. Neither the release of
another stream nor the end of another run moves it. -/
theorem active_route_live (hperformed : (new failFast).perform as = some r) :
    (∀ id target, r.router.active = some (id, target) → ∃ s i x run, target = .ofStream s i
      ∧ r.streams[s]? = some x ∧ i < x.processors.length ∧ x.destroyed = false
      ∧ x.readers = false ∧ r.runs[s]? = some run ∧ run.stream = s ∧ run.phase = .running)
    ∧ (∀ a x run, r.active = some a → r.streams[a.stream]? = some x → x.destroyed = false →
      0 < x.processors.length → r.runs[a.stream]? = some run → run.phase ≠ .called →
      ∃ id, r.router.active = some (id, .ofStream a.stream (x.processors.length - 1)))
    ∧ (∀ id s i, r.router.active = some (id, .ofStream s i) → ∀ t, t ≠ s →
      (r.destroy t).router.active = r.router.active
        ∧ ∀ run r', r.runs[t]? = some run → run.phase ≠ .called → r.step (.run t) = some r' →
          r'.router.active = r.router.active) := by
  obtain ⟨hsound, h⟩ := Routed.perform hperformed
  refine ⟨?_, ?_, ?_⟩
  · intro id target hactive
    obtain ⟨s, i, x, hown, hfound, hmem, hbound⟩ := h.active id target hactive
    obtain ⟨hlive, hreaders, run, hs, hrunning⟩ := h.held s x hfound id hmem
    obtain ⟨_, _, ht⟩ := hsound.toTidy.tends hs
    exact ⟨s, i, x, run, hown, hfound, hbound, hlive, hreaders, hs, ht.driven.stream, hrunning⟩
  · intro a x run hseated hfound hlive hsome ha hstarted
    have hrunning : run.phase = .running := by
      cases hphase : run.phase with
      | called => exact absurd hphase hstarted
      | running => rfl
      | returned => exact absurd hphase (hsound.attended a run hseated ha)
    obtain ⟨id, -, hactive⟩ := h.latest _ x run hfound ha hrunning hlive hsome
    exact ⟨id, hactive⟩
  · intro id s i hactive t hne
    exact ⟨h.destroy_ne hactive hne, fun run r' hget_t hstarted hstep =>
      h.finish_ne hsound.toTidy hactive hne hget_t hstarted hstep⟩

/-- A session with two processors takes the slot of another one while the run of that one is still
at work. -/
def overlap : List Act :=
  [.event (.token none), .event (.start 1 (.ok [.consume])), .event (.step (.run 0)),
    .event (.step (.plant (.consumer 0))), .event (.start 1 (.ok [.consume, .stall])),
    .event (.step (.run 1)), .event (.step (.plant (.link 0))),
    .event (.step (.plant (.consumer 0)))]

theorem active_route_live_in_overlap :
    ∃ r r' id, (new true).perform overlap = some r ∧ r.step (.run 0) = some r'
      ∧ r.runs.map Run.phase = [.running, .running]
      ∧ r'.runs.map Run.phase = [.returned, .running]
      ∧ r.router.active = some (id, .ofStream 1 1)
      ∧ r'.router.active = some (id, .ofStream 1 1) := by
  obtain ⟨r, hperformed⟩ := Option.isSome_iff_exists.mp
    (by decide +kernel : ((new true).perform overlap).isSome = true)
  have hfacts : ((new true).perform overlap).all fun r =>
      r.active = some ⟨1, 6, [2, 3]⟩ ∧ r.runs.map Run.phase = [.running, .running]
        ∧ r.streams[1]?.any (fun x => !x.destroyed && x.processors.length == 2)
        ∧ (r.step (.run 0)).any fun r' => r'.runs.map Run.phase = [.returned, .running] := by
    decide +kernel
  rw [hperformed, Option.all_some, decide_eq_true_eq] at hfacts
  obtain ⟨hseated, hphases, hlive, hmoves⟩ := hfacts
  obtain ⟨x, hfound, hlive⟩ := (Option.any_eq_true _ _).mp hlive
  obtain ⟨r', hstep, hreturned⟩ := (Option.any_eq_true _ _).mp hmoves
  rw [Bool.and_eq_true, Bool.not_eq_true', beq_iff_eq] at hlive
  have hrunning (k : Nat) (hk : [RunPhase.running, .running][k]? = some .running) :
      ∃ run, r.runs[k]? = some run ∧ run.phase = .running := by
    rw [← hphases, List.getElem?_map] at hk
    exact Option.map_eq_some_iff.mp hk
  obtain ⟨run, h0, hstarted⟩ := hrunning 0 rfl
  obtain ⟨run', h1, hstarted'⟩ := hrunning 1 rfl
  obtain ⟨-, hlatest, hsurvives⟩ := active_route_live hperformed
  obtain ⟨id, hactive⟩ := hlatest _ x run' hseated hfound hlive.1 (hlive.2 ▸ Nat.two_pos) h1
    (hstarted' ▸ nofun)
  rw [hlive.2] at hactive
  have hkept := (hsurvives id 1 1 hactive 0 Nat.zero_ne_one).2 run r' h0 (hstarted ▸ nofun) hstep
  exact ⟨r, r', id, hperformed, hstep, hphases, of_decide_eq_true hreturned, hactive,
    hkept.trans hactive⟩

end Headend.Ingest.Registry
