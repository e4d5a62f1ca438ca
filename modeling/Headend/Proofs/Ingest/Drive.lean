import Headend.Proofs.Ingest.Slot

/-!
# Runs at work

A run starts when it gets the reading ends of its stream, and is over when its token is cancelled
and all its consumers have returned. `RunStep` lists what one step of a run can be. Each keeps the
registry sound.
-/

namespace Headend.Ingest

open Plant

/-- Later states of one run. -/
structure Run.Continues (run run' : Run) : Prop where
  stream : run'.stream = run.stream
  token : run'.token = run.token
  drives : run'.drives = run.drives

namespace Registry

variable {r r' r'' : Registry} {i k s token session : Nat} {x : Stream} {run run' : Run}

/-! ## One step of a run -/

inductive RunStep (r : Registry) (k : Nat) (run : Run) (x : Stream) : Registry → Prop where
  | start (hcalled : run.phase = .called) (hreaders : x.readers = true) :
    RunStep r k run x (r.startRun k run x)
  /-- The reading ends were taken or dropped before. -/
  | refused (hcalled : run.phase = .called) (hreaders : x.readers = false) :
    RunStep r k run x (finishRun { r with plant := (r.plant.linkToken run.token x.closed).1 } k
      { run with session := some (r.plant.linkToken run.token x.closed).2 })
  | finished {session : Nat} (hrunning : run.phase = .running) (hown : run.session = some session)
      (hcancelled : r.plant.tokens.cancelled session = true)
      (hreturned : r.processorsReturned run.stream = true) :
    RunStep r k run x ((r.unregisterRoutes run.stream).finishRun k run)

theorem stepRun_cases (h : r.stepRun k = some r') :
    ∃ run x, r.runs[k]? = some run ∧ r.streams[run.stream]? = some x ∧ RunStep r k run x r' := by
  simp only [stepRun, Option.bind_eq_bind, Option.bind_eq_some_iff] at h
  obtain ⟨run, hk, x, hstream, h⟩ := h
  refine ⟨run, x, hk, hstream, ?_⟩
  split at h
  case h_1 hcalled =>
    split at h <;> cases h
    case isTrue hreaders => exact .start hcalled hreaders
    case isFalse hreaders => exact .refused hcalled (Bool.eq_false_iff.mpr hreaders)
  case h_2 hrunning =>
    obtain ⟨session, hown, h⟩ := Option.bind_eq_some_iff.mp h
    split at h <;> cases h
    case isTrue hdue =>
      rw [Bool.and_eq_true] at hdue
      exact .finished hrunning hown hdue.1 hdue.2
  case h_3 => cases h

/-! ## The end of a run -/

theorem Tidy.return (h : r.Tidy) (hk : r.runs[k]? = some run) (hc : run.Continues run') :
    Tidy { r with runs := r.runs.set k { run' with phase := .returned } } where
  sessions := h.sessions
  runs := (List.length_set ..).trans h.runs
  tended i hbound := by
    by_cases hsame : k = i
    · subst hsame
      obtain ⟨token, x, ht⟩ := h.tends hk
      have hsize : k < r.runs.length := (List.getElem?_eq_some_iff.mp hk).1
      -- A run that has returned stands on nothing any more.
      refine ⟨token, x, _, ht.session, ht.stream, List.getElem?_set_self hsize, ?_, ht.place⟩
      exact {
        stream := hc.stream.trans ht.driven.stream
        own := hc.token.trans ht.driven.own
        drives := hc.drives.trans ht.driven.drives
        size := ht.driven.size
        sealed := ht.driven.sealed
        called := nofun
        running := nofun }
    · exact (h.tended i hbound).carry (.refl _) (fun x hfound => ⟨x, hfound, .of_grows (.refl _) x⟩)
        rfl (List.getElem?_set_ne hsame) fun _ hactive _ _ => .inl hactive
  seated := h.seated
  listed := h.listed

theorem finishRun_of_drives (hdrives : run.drives = true) : r.finishRun k run =
    endSession { r with runs := r.runs.set k { run with phase := .returned } } run :=
  if_pos hdrives

theorem Sound.finishRun (h : r.Sound) (hk : r.runs[k]? = some run) (hc : run.Continues run') :
    (r.finishRun k run').Sound := by
  obtain ⟨token, x, ht⟩ := h.toTidy.tends hk
  have hdrives : run'.drives = true := hc.drives.trans ht.driven.drives
  have hstream : run'.stream = k := hc.stream.trans ht.driven.stream
  rw [finishRun_of_drives hdrives]
  -- Until `endSession` has seen to the slot, the stream in it may be that of the returned run.
  refine ⟨(h.toTidy.return hk hc).endSession run', ?_⟩
  obtain ⟨_, _, hd, hkept, -⟩ := endSession_drifts
    { r with runs := r.runs.set k { run' with phase := .returned } } run'
  intro a run₂ hactive ha
  obtain ⟨hactive, hne⟩ := hkept a (hd.active.symm.trans hactive)
  rw [hd.runs, List.getElem?_set_ne (hstream ▸ hne.symm)] at ha
  exact h.attended a run₂ hactive ha

theorem finishRun_returned (hk : r.runs[k]? = some run) (hdrives : run'.drives = true) :
    (r.finishRun k run').runs[k]? = some { run' with phase := .returned } := by
  obtain ⟨_, _, hd, -, -⟩ := endSession_drifts
    { r with runs := r.runs.set k { run' with phase := .returned } } run'
  rw [finishRun_of_drives hdrives, hd.runs]
  exact List.getElem?_set_self (List.getElem?_eq_some_iff.mp hk).1

/-! ## The beginning of a run -/

/-- Consumers are called for the stream `s`, all of them for the token `session`. -/
structure Hires (s session : Nat) (r r' : Registry) : Prop extends Frame r r' where
  plant : r.plant.Grows r'.plant
  tokens : r'.plant.tokens = r.plant.tokens
  others : ∀ j, j ≠ s → r'.streams[j]? = r.streams[j]?
  stream : ∀ x, r.streams[s]? = some x → ∃ x' : Stream, r'.streams[s]? = some x'
    ∧ x'.closed = x.closed ∧ x'.destroyed = x.destroyed
    ∧ ((∀ c ∈ x.consumers, r.plant.Works c session) →
      ∀ c ∈ x'.consumers, r'.plant.Works c session)

theorem Hires.refl (s session : Nat) (r : Registry) : Hires s session r r where
  toFrame := ⟨rfl, rfl, rfl, rfl, rfl, rfl⟩
  plant := .refl _
  tokens := rfl
  others _ _ := rfl
  stream x hfound := ⟨x, hfound, rfl, rfl, id⟩

theorem Hires.trans (h : Hires s session r r') (h' : Hires s session r' r'') :
    Hires s session r r'' where
  toFrame := h.toFrame.trans h'.toFrame
  plant := h.plant.trans h'.plant
  tokens := h'.tokens.trans h.tokens
  others j hne := (h'.others j hne).trans (h.others j hne)
  stream x hfound := by
    obtain ⟨x', hfound, hclosed, hdestroyed, hworks⟩ := h.stream x hfound
    obtain ⟨x'', hfound, hclosed', hdestroyed', hworks'⟩ := h'.stream x' hfound
    exact ⟨x'', hfound, hclosed'.trans hclosed, hdestroyed'.trans hdestroyed, hworks' ∘ hworks⟩

theorem Hires.of_modify {f : Stream → Stream} (hframe : Frame r r')
    (hplant : r.plant.Grows r'.plant) (htokens : r'.plant.tokens = r.plant.tokens)
    (hstreams : r'.streams = r.streams.modify s f) (hclosed : ∀ x, (f x).closed = x.closed)
    (hdestroyed : ∀ x, (f x).destroyed = x.destroyed)
    (hworks : ∀ x, ∀ c ∈ (f x).consumers, c ∈ x.consumers ∨ r'.plant.Works c session) :
    Hires s session r r' where
  toFrame := hframe
  plant := hplant
  tokens := htokens
  others j hne := by rw [hstreams, List.getElem?_modify_ne _ _ hne.symm]
  stream x hfound := by
    refine ⟨f x, ?_, hclosed x, hdestroyed x, fun hold c hmem => ?_⟩
    · rw [hstreams, List.getElem?_modify_eq, hfound]
      rfl
    · obtain hkept | hnew := hworks x c hmem
      · exact hplant.works c session (hold c hkept)
      · exact hnew

/-- A stream gets one more route. -/
theorem Hires.register (s session i : Nat) (r : Registry) (x : Stream) : Hires s session r
    (if x.routed = true then
      updateStream { r with router := (r.router.register (.ofStream s i)).1 } s fun y =>
        { y with routes := y.routes ++ [(r.router.register (.ofStream s i)).2] }
    else r) := by
  split
  · exact .of_modify .modify (.refl _) rfl rfl (fun _ => rfl) (fun _ => rfl)
      fun _ _ hmem => .inl hmem
  · exact .refl s session r

/-- The consumers of a stream after one of its processors was called. -/
theorem mem_consumers_call {i c d : Nat} {q : Processor}
    (hmem : c ∈ ({ x with
      processors := x.processors.set i { q with consumer := some d } } : Stream).consumers) :
    c ∈ x.consumers ∨ c = d := by
  obtain ⟨q', hmem, hconsumer⟩ := List.mem_filterMap.mp hmem
  obtain hold | rfl := List.mem_or_eq_of_mem_set hmem
  · exact .inl (List.mem_filterMap.mpr ⟨q', hold, hconsumer⟩)
  · exact .inr (Option.some.inj hconsumer).symm

theorem Hires.startProcessor (s session i : Nat) (pipes : Sides Nat) (r : Registry) :
    Hires s session r (r.startProcessor s session i pipes) := by
  simp only [Registry.startProcessor]
  split
  · exact .refl s session r
  split
  · exact .refl s session r
  case h_2 x hfound _ q hi =>
    refine (Hires.register s session i r x).trans ?_
    refine .of_modify .modify (.addConsumer _ _) rfl rfl (fun _ => rfl) (fun _ => rfl) ?_
    intro y c hmem
    obtain hold | rfl := mem_consumers_call hmem
    · exact .inl hold
    · exact .inr (works_addConsumer _ _)

theorem Hires.startProcessors (s session : Nat) (inputs : List (Sides Nat × Nat)) (r : Registry) :
    Hires s session r
      (inputs.foldl (fun r (pipes, i) => r.startProcessor s session i pipes) r) := by
  induction inputs generalizing r with
  | nil => exact .refl s session r
  | cons input inputs ih => exact (Hires.startProcessor s session input.2 input.1 r).trans (ih _)

/-- A run has started. -/
structure Started (r : Registry) (k : Nat) (run : Run) (x : Stream) (r' : Registry) : Prop where
  frame : Frame { r with runs := r'.runs } r'
  runs : r'.runs = r.runs.set k
    { run with session := some r.plant.tokens.all.length, phase := .running }
  plant : (r.plant.linkToken run.token x.closed).1.Grows r'.plant
  tokens : r'.plant.tokens = (r.plant.tokens.child run.token).1
  others : ∀ j, j ≠ run.stream → r'.streams[j]? = r.streams[j]?
  stream : ∃ x' : Stream, r'.streams[run.stream]? = some x' ∧ x'.closed = x.closed
    ∧ x'.destroyed = x.destroyed
    ∧ (x.consumers = [] → ∀ c ∈ x'.consumers, r'.plant.Works c r.plant.tokens.all.length)

theorem Started.grows (hs : Started r k run x r') : r.plant.Grows r'.plant :=
  (Grows.linkToken r.plant run.token x.closed).trans hs.plant

/-- A run that has just started has what it needs to notice the end of its session. -/
theorem Started.serves {x' : Stream} (hs : Started r k run x r')
    (hsize : run.token < r.plant.tokens.all.length) (hclosed : x'.closed = x.closed)
    (hworks : ∀ c ∈ x'.consumers, r'.plant.Works c r.plant.tokens.all.length) :
    Serves r'.plant run.token x' r.plant.tokens.all.length := by
  have hlength : (r.plant.tokens.child run.token).1.all.length = r.plant.tokens.all.length + 1 := by
    simp only [Tokens.child, List.length_append, List.length_singleton]
  have hfresh : r.plant.tokens.all.length < (r.plant.tokens.child run.token).1.all.length :=
    hlength ▸ Nat.lt_succ_self _
  constructor
  case size => rwa [hs.tokens]
  case ancestors =>
    rw [hs.tokens]
    exact Tokens.ancestors_child r.plant.tokens hsize
  case tied =>
    rw [hclosed]
    exact hs.plant.ties _ _ hfresh (ties_linkToken r.plant run.token x.closed)
  case works => exact hworks

theorem startRun_started (hstream : r.streams[run.stream]? = some x) :
    Started r k run x (r.startRun k run x) := by
  -- The token comes first, then the pipes are split, and last the processors are called.
  let linked := (r.plant.linkToken run.token x.closed).1
  let session := r.plant.tokens.all.length
  let halves := linked.split x.processors.length session x.pipes
  let taken := updateStream { r with plant := halves.1 } run.stream fun y =>
    { y with readers := false }
  have hhires := Hires.startProcessors run.stream session halves.2.zipIdx taken
  have hsplit := Grows.split linked x.processors.length session x.pipes
  constructor
  case frame =>
    have hsize : taken.streams.length = r.streams.length := List.length_modify _ _ _
    exact ⟨hhires.active, hhires.shutdown, hhires.sessions, rfl, hhires.failFast,
      hhires.size.trans hsize⟩
  case runs => exact congrArg (fun runs => List.set runs k _) hhires.runs
  case plant => exact hsplit.trans hhires.plant
  case tokens => exact hhires.tokens.trans (split_tokens _ _ _ _)
  case others =>
    intro j hne
    exact (hhires.others j hne).trans (List.getElem?_modify_ne _ _ hne.symm)
  case stream =>
    have hfound : taken.streams[run.stream]? = some { x with readers := false } := by
      simp only [taken, updateStream, List.getElem?_modify_eq, hstream]
      rfl
    obtain ⟨x', hfound, hclosed, hdestroyed, hworks⟩ := hhires.stream _ hfound
    refine ⟨x', hfound, hclosed, hdestroyed, fun hnone => hworks ?_⟩
    intro c hmem
    have hmem : c ∈ x.consumers := hmem
    rw [hnone] at hmem
    cases hmem

/-- The session of a run that starts. -/
theorem Tends.start (ht : r.Tends k token x run) (hcalled : run.phase = .called)
    (hs : Started r k run x r') : r'.Tended k := by
  obtain ⟨rfl, rfl⟩ := And.intro ht.driven.stream ht.driven.own
  obtain ⟨x', hfound, hclosed, hdestroyed, hworks⟩ := hs.stream
  have hsize : run.stream < r.runs.length := (List.getElem?_eq_some_iff.mp ht.drive).1
  have hdrive := List.getElem?_set_self (a := { run with
    session := some r.plant.tokens.all.length, phase := .running }) hsize
  refine ⟨run.token, x', _, hs.frame.sessions ▸ ht.session, hfound, hs.runs ▸ hdrive, ?_, ?_⟩
  case refine_1 =>
    constructor
    case stream => rfl
    case own => rfl
    case drives => exact ht.driven.drives
    case size => exact Nat.lt_of_lt_of_le ht.driven.size hs.grows.tokens.size
    case sealed => exact (ht.driven.sealed.grow hs.grows).of_eq hclosed hdestroyed
    case called => exact nofun
    case running =>
      intro _
      exact ⟨_, rfl, hs.serves ht.driven.size hclosed (hworks (ht.driven.called hcalled))⟩
  case refine_2 =>
    obtain ⟨tasks, hactive⟩ | ⟨hgone, hfired⟩ := ht.place
    · exact .inl ⟨tasks, hs.frame.active.trans hactive⟩
    · exact .inr ⟨hdestroyed.trans hgone, hs.grows.tokens.fired _ hfired⟩

theorem Tidy.start (h : r.Tidy) (hk : r.runs[k]? = some run)
    (hstream : r.streams[run.stream]? = some x) (hcalled : run.phase = .called)
    (hs : Started r k run x r') : r'.Tidy := by
  obtain ⟨token, y, ht⟩ := h.tends hk
  obtain rfl : x = y := Option.some.inj (hstream.symm.trans (ht.driven.stream ▸ ht.stream))
  constructor
  case sessions => rw [hs.frame.sessions, hs.frame.size, h.sessions]
  case runs => rw [hs.runs, List.length_set, hs.frame.size, h.runs]
  case seated =>
    intro a hactive
    rw [hs.frame.sessions]
    exact h.seated a (hs.frame.active ▸ hactive)
  case listed =>
    rw [hs.frame.active, hs.frame.shutdown]
    exact h.listed
  case tended =>
    intro i hsize
    by_cases hsame : i = k
    · exact hsame ▸ ht.start hcalled hs
    · refine (h.tended i (hs.frame.size ▸ hsize)).carry hs.grows ?_
        (by rw [hs.frame.sessions]) ?_ ?_
      · intro z hfound
        have hne : i ≠ run.stream := ht.driven.stream ▸ hsame
        exact ⟨z, (hs.others i hne).trans hfound, .of_grows hs.grows z⟩
      · rw [hs.runs, List.getElem?_set_ne (Ne.symm hsame)]
      · intro a hactive _ _
        exact .inl (hs.frame.active.trans hactive)

theorem Sound.start (h : r.Sound) (hk : r.runs[k]? = some run)
    (hstream : r.streams[run.stream]? = some x) (hcalled : run.phase = .called)
    (hs : Started r k run x r') : r'.Sound := by
  refine ⟨h.toTidy.start hk hstream hcalled hs, ?_⟩
  intro a run₂ hactive ha
  rw [hs.frame.active] at hactive
  rw [hs.runs] at ha
  by_cases hsame : k = a.stream
  · subst hsame
    rw [List.getElem?_set_self (List.getElem?_eq_some_iff.mp hk).1] at ha
    cases ha
    exact nofun
  · rw [List.getElem?_set_ne hsame] at ha
    exact h.attended a run₂ hactive ha

theorem Sound.stepRun (h : r.Sound) (hstep : r.stepRun k = some r') : r'.Sound := by
  obtain ⟨run, x, hk, hstream, hstep⟩ := stepRun_cases hstep
  cases hstep with
  | start hcalled hreaders => exact h.start hk hstream hcalled (startRun_started hstream)
  | refused hcalled hreaders =>
    have hlinked := h.drift (.plants (.linkToken r.plant run.token x.closed))
    exact hlinked.finishRun hk ⟨rfl, rfl, rfl⟩
  | finished hrunning hown hcancelled hreturned =>
    have hd := Drifts.unregisterRoutes r run.stream
    exact (h.drift hd).finishRun (hd.runs ▸ hk) ⟨rfl, rfl, rfl⟩

end Registry

end Headend.Ingest
