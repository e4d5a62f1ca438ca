import Headend.Proofs.Ingest.Alone
import Mathlib.Data.List.Induction

/-!
# First come, first served

A stream has one pair of reading ends and one writing end for each side. Each goes to the first call
that asks for it, unless the stream was destroyed before; destroying takes back what is left, once.
-/

namespace Headend.Ingest.Alone

open Media Plant

variable {r r' start : Registry} {x x' : Stream} {e : Event} {es : List Event}
  {policies : List Policy} {i k : Nat} {failFast routed : Bool}

/-! ## What a history tells -/

/-- Which calls came in time. -/
structure Marks where
  destroyed : Bool
  ingested : Bool
  piped : Side → Bool

def marks (es : List Event) : Marks :=
  ⟨destroyed es, early Event.ingests es, fun side => early (Event.pipes side) es⟩

def Marks.after (m : Marks) (e : Event) : Marks where
  destroyed := m.destroyed || e.destroys
  ingested := m.ingested || (!(m.destroyed || e.destroys) && e.ingests)
  piped side := m.piped side || (!(m.destroyed || e.destroys) && e.pipes side)

theorem marks_snoc (es : List Event) (e : Event) : marks (es ++ [e]) = (marks es).after e := by
  simp only [marks, Marks.after, early_snoc, destroyed_snoc]

/-! ## What the stream shows of it -/

/-- A stream after a history with these marks: what is left of its ends, who has the others, and
how often its processors were destroyed. -/
structure Kept (policies : List Policy) (m : Marks) (r : Registry) (x : Stream) : Prop where
  stream : r.streams = [x]
  pipes : x.pipes = ⟨0, 1⟩
  size : 2 ≤ r.plant.pipes.length
  members : x.processors.map Processor.policy = policies
  destroyed : x.destroyed = m.destroyed
  destroys : ∀ n ∈ x.processors.map Processor.destroys, n = m.destroyed.toNat
  shut : m.destroyed = true → ∀ side, (r.plant.pipes.get (x.pipes.get side)).closed = true
  readers : x.readers = !(m.destroyed || m.ingested)
  writers : ∀ side, x.writers.get side = !(m.destroyed || m.piped side)
  written : ∀ side, r.plant.writers (x.pipes.get side) = (m.piped side).toNat
  consumers : x.processors.map Processor.consumer = if m.ingested then
    (List.range policies.length).map some else List.replicate policies.length none
  begun : r.plant.begun.length = if m.ingested then policies.length else 0

namespace Kept

variable {m : Marks}

theorem bound (h : Kept policies m r x) (side : Side) :
    x.pipes.get side < r.plant.pipes.length := by
  have hsize := h.size
  rw [h.pipes]
  cases side
  · exact Nat.lt_of_lt_of_le Nat.zero_lt_two hsize
  · exact Nat.lt_of_lt_of_le Nat.one_lt_two hsize

theorem count (h : Kept policies m r x) : x.processors.length = policies.length := by
  rw [← h.members, List.length_map]

theorem apart (h : Kept policies m r x) (side side' : Side) :
    x.pipes.get side = x.pipes.get side' ↔ side = side' := by
  rw [h.pipes]
  cases side <;> cases side' <;> decide

theorem unread (h : Kept policies m r x) (hreaders : x.readers = true) :
    m.destroyed = false ∧ m.ingested = false := by
  rw [h.readers] at hreaders
  simpa using hreaders

theorem idle (h : Kept policies m r x) (hreaders : x.readers = true) : r.plant.consumers = [] := by
  have hsize := h.begun
  rw [(h.unread hreaders).2, Plant.begun, List.length_map] at hsize
  exact List.eq_nil_of_length_eq_zero hsize

theorem new (failFast : Bool) (policies : List Policy) (routed : Bool) :
    ∃ x, Kept policies (marks []) (single failFast policies routed) x := by
  refine ⟨(Stream.allocate (Registry.new failFast).plant policies routed).2, ?_⟩
  constructor
  case stream => rfl
  case pipes => rfl
  case size => exact Nat.le_refl 2
  case members => exact (List.map_map ..).trans (List.map_id policies)
  case destroyed => rfl
  case destroys =>
    simp only [Stream.allocate, List.map_map]
    exact fun n hmem => (List.mem_map.mp hmem).elim fun _ hown => hown.2.symm
  case shut => rintro ⟨⟩
  case readers => rfl
  case writers => intro side; cases side <;> rfl
  case written => intro side; cases side <;> rfl
  case consumers => exact (List.map_map ..).trans List.map_const'
  case begun => rfl

/-- Whatever takes no end and calls no processor anew. -/
theorem rest {callee : Option Nat} {routes : List Nat} {tracks : Sides (Option LocalTrack)}
    (h : Kept policies m r x) (hkeeps : r.plant.pipes.Keeps r'.plant.pipes)
    (hmoves : Moves callee r.plant r'.plant)
    (hstream : r'.streams = [{ x with routes := routes, tracks := tracks }]) :
    Kept policies m r' { x with routes := routes, tracks := tracks } where
  stream := hstream
  pipes := h.pipes
  size := Nat.le_trans h.size hkeeps.size
  members := h.members
  destroyed := h.destroyed
  destroys := h.destroys
  shut hgone side := hkeeps.closed _ (h.bound side) (h.shut hgone side)
  readers := h.readers
  writers := h.writers
  written side := by
    rw [Plant.writers, hmoves.targets]
    exact h.written side
  consumers := h.consumers
  begun := by
    rw [hmoves.begun, ← h.begun]
    cases callee with
    | none => rfl
    | some k => exact List.length_set

theorem ingest {run : Run} (h : Kept policies m r x) (hreaders : x.readers = true)
    (hstaffs : Staffs k run x r r') : ∃ x', Kept policies { m with ingested := true } r' x' := by
  obtain ⟨hlive, -⟩ := h.unread hreaders
  obtain ⟨routes, hstream⟩ := hstaffs.stream
  refine ⟨{ x with
    readers := false
    routes := routes
    processors := called x.processors.length x.processors }, ?_⟩
  constructor
  case stream => exact hstream
  case pipes => exact h.pipes
  case size => exact Nat.le_trans h.size hstaffs.pipes.size
  case members => exact (map_called _ _ fun _ _ => rfl).trans h.members
  case destroyed => exact h.destroyed
  case destroys =>
    rw [map_called _ _ fun _ _ => rfl]
    exact h.destroys
  case shut =>
    intro hgone
    cases hlive.symm.trans hgone
  case readers => exact (congrArg not (Bool.or_true _)).symm
  case writers => exact h.writers
  case written => exact fun side => (hstaffs.writers _ (h.bound side)).trans (h.written side)
  case consumers =>
    rw [if_pos rfl, ← h.count]
    exact consumers_called _
  case begun => rw [hstaffs.begun, List.length_replicate, if_pos rfl, h.count]

theorem pipe {codec : Codec} {token session : Nat} {source : Source} {republish : Bool}
    (h : Kept policies m r x)
    (hplant : r'.plant = ((r.plant.linkToken token x.closed).1.pipeTrack codec session source
      republish (if x.writers.get (sideOf codec) then some (x.pipes.get (sideOf codec))
        else none)).1)
    (hstream : r'.streams = [{ x with writers := x.writers.set (sideOf codec) false }]) :
    Kept policies
      { m with piped := fun side => m.piped side || (!m.destroyed && sideOf codec = side) } r'
      { x with writers := x.writers.set (sideOf codec) false } := by
  have hkeeps : r.plant.pipes.Keeps r'.plant.pipes := by
    rw [hplant]
    exact (Extends.pipeTrack (r.plant.linkToken token x.closed).1 ..).pipes
  have hbegun : r'.plant.begun = r.plant.begun := hplant ▸ begun_pipeTrack ..
  constructor
  case stream => exact hstream
  case pipes => exact h.pipes
  case size => exact Nat.le_trans h.size hkeeps.size
  case members => exact h.members
  case destroyed => exact h.destroyed
  case destroys => exact h.destroys
  case shut => exact fun hgone side => hkeeps.closed _ (h.bound side) (h.shut hgone side)
  case readers => exact h.readers
  case writers =>
    intro side
    simp only [Sides.get_set, h.writers side]
    by_cases hsame : sideOf codec = side <;> cases m.destroyed <;> simp [hsame]
  case written =>
    intro side
    have hold : x.pipes.get side < (r.plant.linkToken token x.closed).1.pipes.length := h.bound side
    have hbefore : (r.plant.linkToken token x.closed).1.writers (x.pipes.get side) = _ :=
      h.written side
    rw [hplant]
    refine (writers_pipeTrack codec session source republish _ hold).trans ?_
    rw [hbefore, h.writers]
    by_cases hsame : sideOf codec = side
    -- The end of this side is still here iff nobody asked for it and the stream lives.
    · subst hsame
      cases hgone : m.destroyed <;> cases htaken : m.piped (sideOf codec) <;> simp [htaken]
    · have hother : x.pipes.get (sideOf codec) ≠ x.pipes.get side := mt (h.apart _ _).mp hsame
      simp only [hsame, decide_false, Bool.and_false, Bool.or_false]
      refine Nat.add_eq_left.mpr (List.count_eq_zero.mpr fun hmem => ?_)
      have htarget := List.mem_singleton.mp hmem
      split at htarget
      · exact hother (Option.some.inj htarget).symm
      · cases htarget
  case consumers => exact h.consumers
  case begun => exact hbegun ▸ h.begun

theorem destroy (h : Kept policies m r x) (hlive : x.destroyed = false)
    (hplant : r'.plant
      = Registry.dropEnds x ((r.plant.cancel x.closed).updatePipes x.pipes Pipe.close))
    (hstream : r'.streams = [x.ended]) :
    Kept policies { m with destroyed := true } r' x.ended := by
  let closed := (r.plant.cancel x.closed).updatePipes x.pipes Pipe.close
  have hcloses : r.plant.pipes.Keeps closed.pipes := (Carries.closePipes (r.plant.cancel _) _).pipes
  have hdrops : closed.pipes.Keeps r'.plant.pipes :=
    hplant ▸ (Registry.Steady.dropEnds_keeps x _).pipes
  have hmoves : Moves none r.plant r'.plant := hplant ▸ moves_destroy r.plant x
  have hunspent : m.destroyed = false := h.destroyed.symm.trans hlive
  constructor
  case stream => exact hstream
  case pipes => exact h.pipes
  case size => exact Nat.le_trans h.size (hcloses.trans hdrops).size
  case members => exact (List.map_map ..).trans h.members
  case destroyed => rfl
  case destroys =>
    intro n hmem
    obtain ⟨_, hafter, rfl⟩ := List.mem_map.mp hmem
    obtain ⟨q, hbefore, rfl⟩ := List.mem_map.mp hafter
    have hnone := h.destroys q.destroys (List.mem_map_of_mem hbefore)
    rw [hunspent] at hnone
    exact congrArg (· + 1) hnone
  case shut =>
    intro _ side
    have hbound : x.pipes.get side < closed.pipes.length :=
      Nat.lt_of_lt_of_le (h.bound side) hcloses.size
    exact hdrops.closed _ hbound (closed_updatePipes_close _ _ side (h.bound side))
  case readers => rfl
  case writers =>
    intro side
    cases side <;> rfl
  case written =>
    intro side
    rw [Plant.writers, hmoves.targets]
    exact h.written side
  case consumers => exact (List.map_map ..).trans h.consumers
  case begun => exact hmoves.begun ▸ h.begun

/-- Every event leaves what it did to the next. -/
theorem advance (h : Kept policies m r x) (hd : Deed r x e r') :
    ∃ x', Kept policies (m.after e) r' x' := by
  cases hd with
  | idle hingests hpipes hdestroys hkeeps hmoves hstream =>
    obtain ⟨routes, tracks, hstream⟩ := hstream
    have hgone : (m.destroyed || e.destroys) = m.destroyed := by
      rw [h.destroyed] at hdestroys
      simpa using hdestroys
    have hlate : (m.ingested || (!m.destroyed && e.ingests)) = m.ingested := by
      rw [h.readers] at hingests
      simpa using fun hlive hdue => by simpa [hlive] using hingests hdue
    have hsame : m.after e = m := by
      simp only [Marks.after, hgone, hlate, hpipes, Bool.and_false, Bool.or_false]
    exact ⟨_, hsame ▸ h.rest hkeeps hmoves hstream⟩
  | @ingest token run r' hreaders hstaffs =>
    obtain ⟨hlive, -⟩ := h.unread hreaders
    have hafter : m.after (.ingest token) = { m with ingested := true } := by
      simp [Marks.after, Event.ingests, Event.destroys, Event.pipes, hlive]
    have hcalled : Kept policies m (r.ingest 0 token) x := { h with }
    exact hafter ▸ hcalled.ingest hreaders hstaffs
  | @pipe codec token source r' hplant hstream =>
    have hafter : m.after (.pipe codec token source) = { m with
        piped := fun side => m.piped side || (!m.destroyed && sideOf codec = side) } := by
      simp [Marks.after, Event.ingests, Event.destroys, Event.pipes]
    exact ⟨_, hafter ▸ h.pipe hplant hstream⟩
  | destroy hlive hplant hstream =>
    have hafter : m.after .destroy = { m with destroyed := true } := by
      simp [Marks.after, Event.ingests, Event.destroys, Event.pipes]
    exact ⟨_, hafter ▸ h.destroy hlive hplant hstream⟩

/-- The consumer of a processor has its number. -/
theorem consumer_iff (h : Kept policies m r x) (hingested : m.ingested = true) (i c : Nat) :
    x.processors[i]?.bind Processor.consumer = some c ↔ i = c ∧ i < policies.length := by
  by_cases hbound : i < policies.length
  · have hconsumers := congrArg (·[i]?) h.consumers
    simp only [hingested, if_true, List.getElem?_map, List.getElem?_range hbound, Option.map_some]
      at hconsumers
    obtain ⟨q, hi, hconsumer⟩ := Option.map_eq_some_iff.mp hconsumers
    simp [hi, hconsumer, hbound]
  · have hnone : x.processors[i]? = none :=
      List.getElem?_eq_none (h.count ▸ Nat.le_of_not_lt hbound)
    simp [hnone, hbound]

/-- A processor is called where its consumer begins. -/
theorem transcodes_iff (h : Kept policies m r x) :
    e.transcodes r i = true ↔ e.callee = some i ∧ r.plant.begun[i]? = some false := by
  have hprocessors : (r.streams[0]?.bind fun x => x.processors[i]?) = x.processors[i]? := by
    rw [at_single h.stream, Option.bind_some]
  have hown {c : Nat} (hidle : r.plant.begun[c]? = some false) :
      x.processors[i]?.bind Processor.consumer = some c ↔ i = c := by
    -- There are consumers only once the processors were asked to run.
    have hbound := (List.getElem?_eq_some_iff.mp hidle).1
    rw [h.begun] at hbound
    cases hingested : m.ingested with
    | false => simp [hingested] at hbound
    | true =>
      rw [h.consumer_iff hingested, and_iff_left_of_imp]
      rintro rfl
      simpa [hingested] using hbound
  cases hcallee : e.callee with
  | none => simp [Event.transcodes_of_none hcallee]
  | some c =>
    simp only [Event.transcodes, hcallee, hprocessors, Option.any_some, Bool.and_eq_true,
      beq_iff_eq, Option.some.injEq]
    constructor
    · rintro ⟨hidle, hconsumer⟩
      obtain rfl := (hown hidle).mp hconsumer
      exact ⟨rfl, hidle⟩
    · rintro ⟨rfl, hidle⟩
      exact ⟨hidle, (hown hidle).mpr rfl⟩

/-- What was called before and what is called now. -/
theorem transcodes (h : Kept policies m r x) (hd : Deed r x e r') (i : Nat) :
    (r'.plant.begun[i]? == some true).toNat
      = (r.plant.begun[i]? == some true).toNat + (e.transcodes r i).toNat := by
  obtain hbegun | ⟨hnone, hreaders, hbegun⟩ := hd.begun
  · cases hcallee : e.callee with
    | none =>
      rw [hbegun, hcallee, Event.transcodes_of_none hcallee]
      rfl
    | some c =>
      have hcalls : e.transcodes r i = (c == i && r.plant.begun[i]? == some false) := by
        rw [Bool.eq_iff_iff, h.transcodes_iff, hcallee]
        simp
      rw [hbegun, hcallee, hcalls]
      simp only [Option.elim_some, List.getElem?_set]
      by_cases hsame : c = i
      · -- Whether the consumer had begun before decides if this is a call.
        subst hsame
        cases hc : r.plant.begun[c]? with
        | none => simp [Nat.not_lt.mpr (List.getElem?_eq_none_iff.mp hc)]
        | some called => cases called <;> simp [(List.getElem?_eq_some_iff.mp hc).1]
      · simp [hsame]
  · have hidle : r.plant.begun = [] := congrArg (List.map _) (h.idle hreaders)
    rw [hbegun, hidle, Event.transcodes_of_none hnone, List.getElem?_replicate]
    split <;> rfl

end Kept

/-! ## Histories -/

theorem UnderWay.single (failFast : Bool) (policies : List Policy) (routed : Bool) :
    UnderWay (single failFast policies routed) where
  runs _ hmem := absurd hmem List.not_mem_nil
  pipings _ hmem := absurd hmem List.not_mem_nil

theorem kept_of_play (hplayed : play (single failFast policies routed) es = some r) :
    UnderWay r ∧ (∃ x, Kept policies (marks es) r x) ∧
      ∀ i, transcodes i (single failFast policies routed) es
        = (r.plant.begun[i]? == some true).toNat := by
  induction es using List.reverseRecOn generalizing r with
  | nil =>
    cases hplayed
    exact ⟨.single failFast policies routed, Kept.new failFast policies routed, fun _ => rfl⟩
  | append_singleton es e ih =>
    obtain ⟨last, hbefore, hnext⟩ := play_snoc hplayed
    obtain ⟨hunder, ⟨x, hkept⟩, hcalled⟩ := ih hbefore
    obtain ⟨hdeed, hunder⟩ := advance_deed hunder hkept.stream hkept.idle hnext
    refine ⟨hunder, marks_snoc es e ▸ hkept.advance hdeed, fun i => ?_⟩
    rw [transcodes_snoc hbefore, hcalled, hkept.transcodes hdeed]

/-- A stream can always be called. -/
theorem advance_isSome (hstreams : r.streams = [x]) (hcall : e.calls = true) :
    (advance r e).isSome = true := by
  cases e with
  | ingest token =>
    have hfound : (r.ingest 0 token).streams[0]? = some x := at_single hstreams
    have hk : (r.ingest 0 token).runs[r.runs.length]? = some ⟨0, token, none, false, .called⟩ :=
      List.getElem?_concat_length
    simp only [advance, Registry.stepRun, hk, hfound, Option.bind_eq_bind, Option.bind_some]
    split <;> rfl
  | pipe codec token source =>
    have hfound : (r.pipe 0 codec token source).streams[0]? = some x := at_single hstreams
    have hk : (r.pipe 0 codec token source).pipings[r.pipings.length]?
        = some ⟨0, codec, token, source, .called⟩ := List.getElem?_concat_length
    simp only [advance, Registry.stepPiping, hk, hfound, Option.bind_eq_bind, Option.bind_some]
    rfl
  | destroy => rfl
  | _ => cases hcall

/-- The call reads the track and republishes it. It writes to `target`, if it got one. -/
def Pipes (start : Registry) (before : List Event) (codec : Codec) (token : Nat) (source : Source)
    (target : Option Nat) : Prop :=
  ∃ r r' x, play start before = some r ∧ advance r (.pipe codec token source) = some r'
    ∧ r.streams = [x]
    ∧ r'.plant = ((r.plant.linkToken token x.closed).1.pipeTrack codec
      (r.plant.linkToken token x.closed).2 source (x.tracks.get (sideOf codec)).isSome target).1

/-- What any number of calls to one stream come to. -/
structure Served (policies : List Policy) (start : Registry) (es : List Event) (r : Registry)
    (x : Stream) : Prop where
  stream : r.streams = [x]
  members : x.processors.map Processor.policy = policies
  /-- A processor is called at most once, and never if no run came before the stream was
  destroyed. -/
  transcodes : ∀ i, transcodes i start es ≤ (early Event.ingests es).toNat
  /-- There are no consumers but those of the processors, one for each. -/
  consumers : r.plant.consumers.length = if early Event.ingests es then policies.length else 0
  owners : early Event.ingests es = true →
    x.processors.map Processor.consumer = (List.range policies.length).map some
  destroys : ∀ q ∈ x.processors, q.destroys = (destroyed es).toNat
  /-- The first track of a side gets the pipe if it comes in time; every other one is only
  republished. -/
  pipings : ∀ before codec token source after, es = before ++ .pipe codec token source :: after →
    Pipes start before codec token source
      (if destroyed before || before.any (Event.pipes (sideOf codec)) then none
        else some (x.pipes.get (sideOf codec)))
  /-- No other task ever writes to the pipe. -/
  writers : ∀ side, r.plant.writers (x.pipes.get side) = (early (Event.pipes side) es).toNat
  released : destroyed es = true → (∀ side, (r.plant.pipes.get (x.pipes.get side)).closed = true)
    ∧ x.writers = .both false ∧ x.readers = false
  callable : ∀ e, e.calls = true → (advance r e).isSome = true

theorem early_of_live (kind : Event → Bool) (hlive : destroyed es = false) :
    early kind es = es.any kind := by
  induction es with
  | nil => rfl
  | cons e es ih =>
    obtain ⟨hfirst, hrest⟩ := Bool.or_eq_false_iff.mp hlive
    rw [early, hfirst, ih hrest]
    rfl

theorem play_split {before after : List Event}
    (hplayed : play start (before ++ e :: after) = some r) :
    ∃ s s', play start before = some s ∧ advance s e = some s' := by
  obtain ⟨s, hfirst, hrest⟩ := Runs.foldlM_append_eq_some.mp hplayed
  obtain ⟨s', hnext, -⟩ := Runs.foldlM_cons_eq_some.mp hrest
  exact ⟨s, s', hfirst, hnext⟩

theorem pipes_of_play {before after : List Event} {codec : Codec} {token : Nat} {source : Source}
    (hplayed : play (single failFast policies routed) (before ++ .pipe codec token source :: after)
      = some r) :
    Pipes (single failFast policies routed) before codec token source
      (if destroyed before || before.any (Event.pipes (sideOf codec)) then none
        else some ((⟨0, 1⟩ : Sides Nat).get (sideOf codec))) := by
  obtain ⟨s, s', hfirst, hnext⟩ := play_split hplayed
  obtain ⟨hunder, ⟨x, hkept⟩, -⟩ := kept_of_play hfirst
  obtain ⟨hdeed, -⟩ := advance_deed hunder hkept.stream hkept.idle hnext
  refine ⟨s, s', x, hfirst, hnext, hkept.stream, ?_⟩
  cases hdeed with
  | idle hingests hpipes =>
    have hnone := hpipes (sideOf codec)
    simp [Event.pipes] at hnone
  | pipe hplant hstream =>
    rw [hplant, hkept.writers, hkept.pipes]
    cases hgone : destroyed before with
    | true => simp [marks, hgone]
    | false =>
      cases htaken : before.any (Event.pipes (sideOf codec)) <;>
        simp [marks, hgone, early_of_live _ hgone, htaken]

/-- Whatever is called in whatever order, each end goes to the first who asks in time, and teardown
happens once. -/
theorem served_of_play (hplayed : play (single failFast policies routed) es = some r) :
    ∃ x, Served policies (single failFast policies routed) es r x := by
  obtain ⟨-, ⟨x, hkept⟩, hcalled⟩ := kept_of_play hplayed
  have hbegun : r.plant.consumers.length = if early Event.ingests es then policies.length else 0 :=
    (List.length_map _).symm.trans hkept.begun
  refine ⟨x, ?_⟩
  constructor
  case stream => exact hkept.stream
  case members => exact hkept.members
  case transcodes =>
    intro i
    rw [hcalled, Plant.begun]
    cases hasked : early Event.ingests es with
    | true => exact Bool.toNat_le _
    | false =>
      rw [hasked] at hbegun
      rw [List.eq_nil_of_length_eq_zero hbegun]
      exact Nat.le_refl 0
  case consumers => exact hbegun
  case owners => exact fun hasked => hkept.consumers.trans (if_pos hasked)
  case destroys => exact fun q hmem => hkept.destroys _ (List.mem_map_of_mem hmem)
  case pipings =>
    rintro before codec token source after rfl
    rw [hkept.pipes]
    exact pipes_of_play hplayed
  case writers => exact hkept.written
  case released =>
    intro hgone
    have hwriters (side : Side) : x.writers.get side = false := by
      rw [hkept.writers side, marks, hgone]
      rfl
    have hreaders : x.readers = false := by
      rw [hkept.readers, marks, hgone]
      rfl
    exact ⟨hkept.shut hgone, congrArg₂ Sides.mk (hwriters .video) (hwriters .audio), hreaders⟩
  case callable => exact fun e hcall => advance_isSome hkept.stream hcall

/-- Two processors, and everybody in a hurry. -/
def rush : List Event :=
  [.pipe .opus 0 (.script [] true), .ingest 0, .step (.plant (.consumer 1)), .ingest 0,
    .pipe .opus 0 (.script [] false), .destroy, .pipe .h264 0 (.script [] true),
    .step (.plant (.consumer 0)), .step (.plant (.link 1)), .step (.plant (.consumer 0)), .ingest 0,
    .destroy]

theorem served_in_rush : ∃ r x, play (single false [.stall, .consume] true) rush = some r
    ∧ (∀ i < 2, transcodes i (single false [.stall, .consume] true) rush = 1)
    ∧ Served [.stall, .consume] (single false [.stall, .consume] true) rush r x := by
  obtain ⟨r, hplayed⟩ := Option.isSome_iff_exists.mp
    (by decide +kernel : (play (single false [.stall, .consume] true) rush).isSome = true)
  obtain ⟨x, hserved⟩ := served_of_play hplayed
  exact ⟨r, x, hplayed, by decide +kernel, hserved⟩

end Headend.Ingest.Alone
