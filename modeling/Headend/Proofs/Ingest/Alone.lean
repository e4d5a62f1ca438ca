import Headend.Proofs.Ingest.Moored
import Headend.Proofs.Plant.Ends
import Headend.Proofs.Runs

/-!
# A stream on its own

Whoever holds a stream may call it, at any time and as often as they like: to run its processors, to
pipe a track into it, to destroy it. An `Event` is such a call up to the point where it waits, the
next step of a task, or something from outside. What the calls left behind can be told from the
history: `destroyed` and `early` say which of them came in time.
-/

namespace Headend.Ingest.Alone

open Media Plant

/-- A registry with one stream, outside the slot. -/
def single (failFast : Bool) (policies : List Policy) (routed : Bool) : Registry :=
  ((Registry.new failFast).addStream policies routed).1

inductive Event where
  | ingest (token : Nat)
  | pipe (codec : Codec) (token : Nat) (source : Source)
  | destroy
  | publish (track : LocalTrack)
  /-- A task makes its next step, be it of the plant or a call that waits. -/
  | step (t : Registry.Task)
  /-- A processor returns on its own. -/
  | exit (consumer : Nat)
  /-- A processor reads as it likes. -/
  | read (pipe size : Nat)
  | hangUp (pipe : Nat)
  | token (parent : Option Nat)
  | cancel (token : Nat)

namespace Event

def ingests : Event → Bool
  | ingest _ => true
  | _ => false

/-- The track goes to this side. -/
def pipes (side : Side) : Event → Bool
  | pipe codec _ _ => sideOf codec = side
  | _ => false

def destroys : Event → Bool
  | destroy => true
  | _ => false

/-- The stream itself is called. -/
def calls : Event → Bool
  | ingest _ | pipe _ _ _ | destroy => true
  | _ => false

/-- The consumer that is called, unless it was called before. -/
def callee : Event → Option Nat
  | step (.plant t) => t.callee
  | _ => none

end Event

/-! ## Histories -/

/-- The registry after an event, if it can happen. -/
def advance (r : Registry) : Event → Option Registry
  | .ingest token => (r.ingest 0 token).stepRun r.runs.length
  | .pipe codec token source => (r.pipe 0 codec token source).stepPiping r.pipings.length
  | .destroy => some (r.destroy 0)
  | .publish track => some (r.publish 0 track)
  | .step t => r.step t
  | .exit k => r.act (.event (.exit k))
  | .read pipe size => r.act (.read pipe size)
  | .hangUp pipe => r.act (.hangUp pipe)
  | .token parent => r.act (.event (.token parent))
  | .cancel token => r.act (.event (.cancel token))

def play (r : Registry) (es : List Event) : Option Registry := es.foldlM advance r

/-- The stream was destroyed. -/
def destroyed (es : List Event) : Bool := es.any Event.destroys

/-- Something of this kind came before the stream was destroyed. -/
def early (kind : Event → Bool) : List Event → Bool
  | [] => false
  | e :: es => !e.destroys && (kind e || early kind es)

/-- The event calls the processor `i`. -/
def Event.transcodes (r : Registry) (i : Nat) (e : Event) : Bool :=
  e.callee.any fun c => r.plant.begun[c]? == some false
    && ((r.streams[0]?.bind fun x => x.processors[i]?).bind Processor.consumer) == some c

/-- How often the processor `i` is called. -/
def transcodes (i : Nat) (r : Registry) : List Event → Nat
  | [] => 0
  | e :: es => (e.transcodes r i).toNat + (advance r e).elim 0 fun r => transcodes i r es

variable {r r' : Registry} {x x' : Stream} {e : Event} {es : List Event} {policies : List Policy}
  {i k : Nat}

theorem Event.transcodes_of_none (hnone : e.callee = none) : e.transcodes r i = false := by
  rw [Event.transcodes, hnone]
  rfl

theorem play_snoc (hplayed : play r (es ++ [e]) = some r') :
    ∃ last, play r es = some last ∧ advance last e = some r' :=
  Runs.foldlM_concat_eq_some.mp hplayed

theorem destroyed_snoc (es : List Event) (e : Event) :
    destroyed (es ++ [e]) = (destroyed es || e.destroys) := by
  rw [destroyed, List.any_append, List.any_cons, List.any_nil, Bool.or_false]
  rfl

theorem early_snoc (kind : Event → Bool) (es : List Event) (e : Event) :
    early kind (es ++ [e]) = (early kind es || (!destroyed (es ++ [e]) && kind e)) := by
  induction es with
  | nil => simp [early, destroyed]
  | cons d es ih =>
    have hcons (ds : List Event) : destroyed (d :: ds) = (d.destroys || destroyed ds) :=
      List.any_cons
    simp only [List.cons_append, early, ih, hcons]
    cases d.destroys <;> cases kind d <;> simp

theorem transcodes_snoc (hplayed : play r es = some r') :
    transcodes i r (es ++ [e]) = transcodes i r es + (e.transcodes r' i).toNat := by
  induction es generalizing r with
  | nil =>
    cases hplayed
    cases hnext : advance r' e <;> simp [transcodes, hnext]
  | cons d es ih =>
    obtain ⟨next, hadvanced, hrest⟩ := Option.bind_eq_some_iff.mp hplayed
    rw [List.cons_append, transcodes, transcodes, hadvanced, Option.elim_some, Option.elim_some,
      ih hrest, Nat.add_assoc]

/-! ## What an event does -/

theorem at_single (hstreams : r.streams = [x]) : r.streams[0]? = some x := by
  rw [hstreams]
  rfl

theorem modify_single (hstreams : r.streams = [x]) (f : Stream → Stream) :
    r.streams.modify 0 f = [f x] := by
  rw [hstreams]
  rfl

/-! ### Processors that are called -/

/-- A processor is called with the next consumer. -/
theorem startProcessor_eq {s : Nat} (session : Nat) (pipes : Sides Nat) {q : Processor}
    (hfound : r.streams[s]? = some x) (hi : x.processors[i]? = some q) : ∃ router routes,
    r.startProcessor s session i pipes = { r with
      router := router
      plant := (r.plant.addConsumer (.new q.policy session true pipes)).1
      streams := r.streams.modify s fun y => { y with
        routes := y.routes ++ routes
        processors := y.processors.set i
          { q with consumer := some r.plant.consumers.length } } } := by
  simp only [Registry.startProcessor, hfound, hi, Registry.updateStream]
  cases x.routed with
  | true =>
    simp only [if_true, List.modify_modify_eq]
    exact ⟨_, _, rfl⟩
  | false => exact ⟨r.router, [], by simp [addConsumer]⟩

/-- Processors of which the first `i` were called, each on the consumer of its number. -/
def called (i : Nat) (qs : List Processor) : List Processor :=
  qs.mapIdx fun j q => if j < i then { q with consumer := some j } else q

theorem called_zero (qs : List Processor) : called 0 qs = qs := by
  apply List.ext_getElem?
  intro j
  rw [called, List.getElem?_mapIdx]
  simp

theorem called_succ {qs : List Processor} (hbound : i < qs.length) :
    (called i qs).set i { qs[i] with consumer := some i } = called (i + 1) qs := by
  apply List.ext_getElem?
  intro j
  rw [List.getElem?_set, called, called, List.getElem?_mapIdx, List.getElem?_mapIdx,
    List.length_mapIdx]
  by_cases hsame : i = j
  · subst hsame
    simp [hbound]
  · have hbefore : j < i + 1 ↔ j < i := by omega
    simp only [hsame, if_false, hbefore]

theorem map_called {α : Type} {f : Processor → α} (i : Nat) (qs : List Processor)
    (hsame : ∀ q c, f { q with consumer := c } = f q) : (called i qs).map f = qs.map f := by
  apply List.ext_getElem?
  intro j
  rw [List.getElem?_map, List.getElem?_map, called, List.getElem?_mapIdx, Option.map_map]
  refine congrArg (Option.map · _) (funext fun q => ?_)
  simp only [Function.comp_apply]
  split
  · exact hsame q _
  · rfl

theorem consumers_called (qs : List Processor) :
    (called qs.length qs).map Processor.consumer = (List.range qs.length).map some := by
  apply List.ext_getElem?
  intro j
  rw [List.getElem?_map, List.getElem?_map, called, List.getElem?_mapIdx]
  by_cases hbound : j < qs.length
  · simp [hbound]
  · simp [Nat.le_of_not_lt hbound]

/-- The first `i` processors of a stream were called, and no other consumers. -/
structure Staffed (before : Registry) (x : Stream) (i : Nat) (r : Registry) : Prop where
  stream : ∃ routes, r.streams =
    [{ x with routes := routes, processors := called i x.processors }]
  plant : ∃ consumers, r.plant = { before.plant with consumers := consumers }
  begun : r.plant.begun = List.replicate i false
  runs : r.runs = before.runs
  pipings : r.pipings = before.pipings

theorem Staffed.call {before : Registry} (h : Staffed before x i r) (session : Nat)
    (pipes : Sides Nat) (hbound : i < x.processors.length) :
    Staffed before x (i + 1) (r.startProcessor 0 session i pipes) := by
  obtain ⟨routes, hstreams⟩ := h.stream
  obtain ⟨consumers, hplant⟩ := h.plant
  have hnext : r.plant.consumers.length = i := by
    have hsize := congrArg List.length h.begun
    rwa [Plant.begun, List.length_map, List.length_replicate] at hsize
  have hprocessor : (called i x.processors)[i]? = some x.processors[i] := by
    simp [called, hbound]
  obtain ⟨router, new, heq⟩ := startProcessor_eq session pipes (at_single hstreams) hprocessor
  rw [heq]
  constructor
  case stream =>
    refine ⟨routes ++ new, ?_⟩
    rw [hstreams, hnext, ← called_succ hbound]
    rfl
  case plant => exact ⟨consumers ++ [_], by rw [hplant]; rfl⟩
  case begun =>
    refine (List.map_append ..).trans ?_
    rw [← Plant.begun, h.begun, List.replicate_succ']
    rfl
  case runs => exact h.runs
  case pipings => exact h.pipings

theorem Staffed.calls {before : Registry} (h : Staffed before x i r) (session : Nat)
    (inputs : List (Sides Nat)) (hsize : i + inputs.length = x.processors.length) :
    Staffed before x x.processors.length
      ((inputs.zipIdx i).foldl (fun r (pipes, i) => r.startProcessor 0 session i pipes) r) := by
  induction inputs generalizing i r with
  | nil => exact hsize ▸ h
  | cons pipes inputs ih =>
    rw [List.length_cons] at hsize
    exact ih (h.call session pipes (by omega)) (by omega)

/-- A run that takes the reading ends calls every processor. -/
structure Staffs (k : Nat) (run : Run) (x : Stream) (r r' : Registry) : Prop where
  stream : ∃ routes, r'.streams = [{ x with
    readers := false, routes := routes, processors := called x.processors.length x.processors }]
  pipes : r.plant.pipes.Keeps r'.plant.pipes
  writers : ∀ j < r.plant.pipes.length, r'.plant.writers j = r.plant.writers j
  begun : r'.plant.begun = List.replicate x.processors.length false
  runs : ∃ session, r'.runs = r.runs.set k { run with session := session, phase := .running }
  pipings : r'.pipings = r.pipings

theorem startRun_staffs {run : Run} (hstreams : r.streams = [x]) (hstream : run.stream = 0)
    (hidle : r.plant.consumers = []) : Staffs k run x r (r.startRun k run x) := by
  -- The reading ends are taken and the pipes shared before the first processor is called.
  let linked := (r.plant.linkToken run.token x.closed).1
  let session := r.plant.tokens.all.length
  let halves := linked.split x.processors.length session x.pipes
  let taken := Registry.updateStream { r with plant := halves.1 } 0 fun y =>
    { y with readers := false }
  let all := halves.2.zipIdx.foldl (fun r (pipes, i) => r.startProcessor 0 session i pipes) taken
  have heq : r.startRun k run x = { all with
      runs := all.runs.set k { run with session := some session, phase := .running } } := by
    rw [Registry.startRun, hstream]
    rfl
  have hstart : Staffed taken { x with readers := false } 0 taken := by
    constructor
    case stream =>
      refine ⟨x.routes, ?_⟩
      rw [called_zero]
      exact modify_single hstreams _
    case plant => exact ⟨halves.1.consumers, rfl⟩
    case begun =>
      have hnone : halves.1.consumers = [] := (split_consumers linked _ _ _).trans hidle
      exact congrArg (List.map Consumer.hasStarted) hnone
    case runs => rfl
    case pipings => rfl
  have hstaffed : Staffed taken { x with readers := false } x.processors.length all :=
    hstart.calls session halves.2 ((Nat.zero_add _).trans (length_split _ _ _ _))
  obtain ⟨consumers, hplant⟩ := hstaffed.plant
  rw [heq]
  constructor
  case stream => exact hstaffed.stream
  case pipes =>
    have hkeeps : r.plant.pipes.Keeps halves.1.pipes := (Extends.split linked _ _ _).pipes
    rwa [hplant]
  case writers =>
    intro j hold
    rw [hplant]
    exact writers_split (p := linked) _ _ _ hold
  case begun => exact hstaffed.begun
  case runs => exact ⟨_, congrArg (List.set · k _) hstaffed.runs⟩
  case pipings => exact hstaffed.pipings

/-! ### Calls that wait -/

/-- A run that was begun, and that does not release the stream at its end. -/
structure Waits (run : Run) : Prop where
  stream : run.stream = 0
  drives : run.drives = false
  begun : run.phase ≠ .called

/-- Every call was begun. -/
structure UnderWay (r : Registry) : Prop where
  runs : ∀ run ∈ r.runs, Waits run
  pipings : ∀ q ∈ r.pipings, q.stream = 0 ∧ q.phase ≠ .called

theorem UnderWay.of_eq (h : UnderWay r) (hruns : r'.runs = r.runs)
    (hpipings : r'.pipings = r.pipings) : UnderWay r' :=
  ⟨hruns ▸ h.runs, hpipings ▸ h.pipings⟩

theorem UnderWay.run {run : Run} (h : UnderWay r) (hwaits : Waits run)
    (hruns : ∀ run' ∈ r'.runs, run' ∈ r.runs ∨ run' = run) (hpipings : r'.pipings = r.pipings) :
    UnderWay r' where
  runs run' hmem := by
    obtain hold | rfl := hruns run' hmem
    · exact h.runs run' hold
    · exact hwaits
  pipings := hpipings ▸ h.pipings

theorem UnderWay.piping {q : Piping} (h : UnderWay r) (hstream : q.stream = 0)
    (hbegun : q.phase ≠ .called) (hruns : r'.runs = r.runs)
    (hpipings : ∀ q' ∈ r'.pipings, q' ∈ r.pipings ∨ q' = q) : UnderWay r' where
  runs := hruns ▸ h.runs
  pipings q' hmem := by
    obtain hold | rfl := hpipings q' hmem
    · exact h.pipings q' hold
    · exact ⟨hstream, hbegun⟩

theorem mem_set_concat {α : Type} {l : List α} {a b c : α} (hmem : c ∈ (l ++ [a]).set l.length b) :
    c ∈ l ∨ c = b := by
  rw [List.set_append_right _ _ (Nat.le_refl _), Nat.sub_self, List.set_cons_zero] at hmem
  exact (List.mem_append.mp hmem).imp_right List.mem_singleton.mp

/-- What a call finds it takes; what it does not find does not concern it. -/
inductive Deed (r : Registry) (x : Stream) : Event → Registry → Prop where
  /-- No call, or one that comes too late. -/
  | idle {e : Event} {r' : Registry} (hingests : e.ingests = true → x.readers = false)
      (hpipes : ∀ side, e.pipes side = false) (hdestroys : e.destroys = true → x.destroyed = true)
      (hkeeps : r.plant.pipes.Keeps r'.plant.pipes) (hmoves : Moves e.callee r.plant r'.plant)
      (hstream : ∃ routes tracks, r'.streams = [{ x with routes := routes, tracks := tracks }]) :
      Deed r x e r'
  | ingest {token : Nat} {run : Run} {r' : Registry} (hreaders : x.readers = true)
      (hstaffs : Staffs r.runs.length run x (r.ingest 0 token) r') : Deed r x (.ingest token) r'
  | pipe {codec : Codec} {token : Nat} {source : Source} {r' : Registry}
      (hplant : r'.plant = ((r.plant.linkToken token x.closed).1.pipeTrack codec
        (r.plant.linkToken token x.closed).2 source (x.tracks.get (sideOf codec)).isSome
        (if x.writers.get (sideOf codec) then some (x.pipes.get (sideOf codec)) else none)).1)
      (hstream : r'.streams = [{ x with writers := x.writers.set (sideOf codec) false }]) :
      Deed r x (.pipe codec token source) r'
  | destroy {r' : Registry} (hlive : x.destroyed = false)
      (hplant : r'.plant
        = Registry.dropEnds x ((r.plant.cancel x.closed).updatePipes x.pipes Pipe.close))
      (hstream : r'.streams = [x.ended]) : Deed r x .destroy r'

theorem Event.of_not_calls (hcall : e.calls = false) :
    e.ingests = false ∧ e.destroys = false ∧ ∀ side, e.pipes side = false := by
  cases e with
  | ingest | pipe | destroy => cases hcall
  | _ => exact ⟨rfl, rfl, fun _ => rfl⟩

theorem Deed.outside (hcall : e.calls = false) (hkeeps : r.plant.pipes.Keeps r'.plant.pipes)
    (hmoves : Moves e.callee r.plant r'.plant)
    (hstream : ∃ routes tracks, r'.streams = [{ x with routes := routes, tracks := tracks }]) :
    Deed r x e r' := by
  obtain ⟨hingests, hdestroys, hpipes⟩ := Event.of_not_calls hcall
  refine .idle (fun hdue => ?_) hpipes (fun hdue => ?_) hkeeps hmoves hstream
  · cases hingests.symm.trans hdue
  · cases hdestroys.symm.trans hdue

/-- Only the plant changes. -/
theorem Deed.plants {p : Plant} (hstreams : r.streams = [x]) (hcall : e.calls = false)
    (hcarries : r.plant.Carries p) (hmoves : Moves e.callee r.plant p) :
    Deed r x e { r with plant := p } :=
  .outside hcall hcarries.pipes hmoves ⟨x.routes, x.tracks, hstreams⟩

/-! ### One event -/

theorem finishRun_of_not_drives {run : Run} (hdrives : run.drives = false) : r.finishRun k run
    = { r with runs := r.runs.set k { run with phase := .returned } } := by
  rw [Registry.finishRun, hdrives]
  rfl

theorem unregisterRoutes_single (hstreams : r.streams = [x]) : ∃ router,
    r.unregisterRoutes 0 = { r with router := router, streams := [{ x with routes := [] }] } := by
  simp only [Registry.unregisterRoutes, at_single hstreams, Registry.updateStream,
    modify_single hstreams]
  exact ⟨_, rfl⟩

theorem ingest_deed {token : Nat} (hunder : UnderWay r) (hstreams : r.streams = [x])
    (hidle : x.readers = true → r.plant.consumers = [])
    (h : advance r (.ingest token) = some r') : Deed r x (.ingest token) r' ∧ UnderWay r' := by
  let call : Run := ⟨0, token, none, false, .called⟩
  have hstreams : (r.ingest 0 token).streams = [x] := hstreams
  obtain ⟨run, y, hk, hfound, hstep⟩ := Registry.stepRun_cases h
  obtain rfl : call = run := Option.some.inj (List.getElem?_concat_length.symm.trans hk)
  obtain rfl : x = y := Option.some.inj ((at_single hstreams).symm.trans hfound)
  have hwaits (session : Option Nat) (phase : RunPhase) (hbegun : phase ≠ .called) :
      Waits { call with session := session, phase := phase } := ⟨rfl, rfl, hbegun⟩
  cases hstep with
  | start hcalled hreaders =>
    have hstaffs : Staffs r.runs.length call x (r.ingest 0 token) _ :=
      startRun_staffs hstreams rfl (hidle hreaders)
    obtain ⟨session, hruns⟩ := hstaffs.runs
    refine ⟨.ingest hreaders hstaffs, ?_⟩
    refine hunder.run (hwaits session .running (by rintro ⟨⟩)) (fun run hmem => ?_) hstaffs.pipings
    exact mem_set_concat (hruns ▸ hmem)
  | refused hcalled hreaders =>
    rw [finishRun_of_not_drives rfl]
    have hmoves : Moves none r.plant (r.plant.linkToken token x.closed).1 := ⟨rfl, rfl⟩
    refine ⟨.idle (fun _ => hreaders) (fun _ => rfl) (by rintro ⟨⟩) (.refl _) hmoves
      ⟨x.routes, x.tracks, hstreams⟩, ?_⟩
    exact hunder.run (hwaits _ .returned (by rintro ⟨⟩)) (fun run hmem => mem_set_concat hmem) rfl
  | finished hrunning => cases hrunning

theorem pipe_deed {codec : Codec} {token : Nat} {source : Source} (hunder : UnderWay r)
    (hstreams : r.streams = [x]) (h : advance r (.pipe codec token source) = some r') :
    Deed r x (.pipe codec token source) r' ∧ UnderWay r' := by
  let call : Piping := ⟨0, codec, token, source, .called⟩
  have hstreams : (r.pipe 0 codec token source).streams = [x] := hstreams
  obtain ⟨q, y, hk, hfound, hstep⟩ := Registry.stepPiping_cases h
  obtain rfl : call = q := Option.some.inj (List.getElem?_concat_length.symm.trans hk)
  obtain rfl : x = y := Option.some.inj ((at_single hstreams).symm.trans hfound)
  cases hstep with
  | begin =>
    refine ⟨.pipe rfl (modify_single hstreams _), ?_⟩
    exact hunder.piping (q := { call with phase := .running _ }) rfl (by rintro ⟨⟩) rfl
      fun _ hmem => mem_set_concat hmem
  | finished hrunning => cases hrunning

theorem destroy_deed (hunder : UnderWay r) (hstreams : r.streams = [x]) :
    Deed r x .destroy (r.destroy 0) ∧ UnderWay (r.destroy 0) := by
  cases hlive : x.destroyed with
  | true =>
    rw [Registry.destroy_of_destroyed (at_single hstreams) hlive]
    exact ⟨.idle (by rintro ⟨⟩) (fun _ => rfl) (fun _ => hlive) (.refl _) ⟨rfl, rfl⟩
      ⟨x.routes, x.tracks, hstreams⟩, hunder⟩
  | false =>
    obtain ⟨router, heq⟩ := Registry.destroy_eq (at_single hstreams) hlive
    rw [heq]
    exact ⟨.destroy hlive rfl (modify_single hstreams _), hunder.of_eq rfl rfl⟩

theorem step_deed {t : Registry.Task} (hunder : UnderWay r) (hstreams : r.streams = [x])
    (h : r.step t = some r') : Deed r x (.step t) r' ∧ UnderWay r' := by
  cases t with
  | plant t =>
    obtain ⟨plant, hstepped, rfl⟩ := Option.map_eq_some_iff.mp h
    exact ⟨.plants hstreams rfl (.step hstepped) (.step hstepped), hunder.of_eq rfl rfl⟩
  | run k =>
    obtain ⟨run, y, hk, -, hstep⟩ := Registry.stepRun_cases h
    have hwaits := hunder.runs run (List.mem_of_getElem? hk)
    -- A run that was begun takes no ends any more.
    cases hstep with
    | start hcalled => exact absurd hcalled hwaits.begun
    | refused hcalled => exact absurd hcalled hwaits.begun
    | finished hrunning =>
      obtain ⟨router, heq⟩ := unregisterRoutes_single hstreams
      rw [hwaits.stream, finishRun_of_not_drives hwaits.drives, heq]
      have hended : Waits { run with phase := .returned } :=
        ⟨hwaits.stream, hwaits.drives, by rintro ⟨⟩⟩
      exact ⟨.outside rfl (.refl _) ⟨rfl, rfl⟩ ⟨[], x.tracks, rfl⟩,
        hunder.run hended (fun _ hmem => List.mem_or_eq_of_mem_set hmem) rfl⟩
  | piping k =>
    obtain ⟨q, y, hk, -, hstep⟩ := Registry.stepPiping_cases h
    obtain ⟨hstream, hbegun⟩ := hunder.pipings q (List.mem_of_getElem? hk)
    cases hstep with
    | begin hcalled => exact absurd hcalled hbegun
    | finished =>
      refine ⟨.outside rfl (.refl _) ⟨rfl, rfl⟩ ⟨x.routes, x.tracks, hstreams⟩, ?_⟩
      exact hunder.piping (q := { q with phase := .returned }) hstream (by rintro ⟨⟩) rfl
        fun _ hmem => List.mem_or_eq_of_mem_set hmem

theorem advance_deed (hunder : UnderWay r) (hstreams : r.streams = [x])
    (hidle : x.readers = true → r.plant.consumers = []) (h : advance r e = some r') :
    Deed r x e r' ∧ UnderWay r' := by
  cases e with
  | ingest token => exact ingest_deed hunder hstreams hidle h
  | pipe codec token source => exact pipe_deed hunder hstreams h
  | destroy => exact Option.some.inj h ▸ destroy_deed hunder hstreams
  | publish track =>
    cases h
    exact ⟨.outside rfl (.refl _) ⟨rfl, rfl⟩ ⟨x.routes, _, modify_single hstreams _⟩,
      hunder.of_eq rfl rfl⟩
  | step t => exact step_deed hunder hstreams h
  | exit k =>
    obtain ⟨plant, hleft, rfl⟩ := Option.map_eq_some_iff.mp h
    exact ⟨.plants hstreams rfl (.exit hleft) (.exit hleft), hunder.of_eq rfl rfl⟩
  | read pipe size =>
    obtain ⟨plant, htaken, rfl⟩ := Option.map_eq_some_iff.mp h
    obtain ⟨data, q, hanswer, rfl⟩ := Registry.read_eq_some htaken
    exact ⟨.plants hstreams rfl (.usePipes (.set (Pipe.closed_of_read hanswer))) ⟨rfl, rfl⟩,
      hunder.of_eq rfl rfl⟩
  | hangUp pipe =>
    cases h
    exact ⟨.plants hstreams rfl (.usePipes (.dropReader _ pipe)) ⟨rfl, rfl⟩, hunder.of_eq rfl rfl⟩
  | token parent =>
    cases parent with
    | none =>
      cases h
      exact ⟨.plants hstreams rfl (.freshToken _) ⟨rfl, rfl⟩, hunder.of_eq rfl rfl⟩
    | some parent =>
      cases h
      exact ⟨.plants hstreams rfl (.childToken _ parent) ⟨rfl, rfl⟩, hunder.of_eq rfl rfl⟩
  | cancel token =>
    cases h
    exact ⟨.plants hstreams rfl (.cancel _ token) ⟨rfl, rfl⟩, hunder.of_eq rfl rfl⟩

/-! ### Who is called -/

/-- Destroying hands out no end, and calls nobody. -/
theorem moves_destroy (p : Plant) (x : Stream) :
    Moves none p
      (Registry.dropEnds x ((p.cancel x.closed).updatePipes x.pipes Pipe.close)) := by
  have hclosed : Moves none p ((p.cancel x.closed).updatePipes x.pipes Pipe.close) := ⟨rfl, rfl⟩
  refine hclosed.trans (Registry.dropEnds_induct .refl .trans ?_ ?_ x _)
  · exact fun _ _ => ⟨rfl, rfl⟩
  · exact fun _ _ => ⟨rfl, rfl⟩

/-- Consumers are added when a run takes the reading ends, and never else. -/
theorem Deed.begun (hd : Deed r x e r') :
    r'.plant.begun = (e.callee.elim r.plant.begun fun k => r.plant.begun.set k true)
      ∨ e.callee = none ∧ x.readers = true
        ∧ r'.plant.begun = List.replicate x.processors.length false := by
  cases hd with
  | idle hingests hpipes hdestroys hkeeps hmoves hstream => exact .inl hmoves.begun
  | ingest hreaders hstaffs => exact .inr ⟨rfl, hreaders, hstaffs.begun⟩
  | pipe hplant hstream => exact .inl (hplant ▸ begun_pipeTrack ..)
  | destroy hlive hplant hstream => exact .inl (hplant ▸ (moves_destroy r.plant x).begun)

end Headend.Ingest.Alone
