import Headend.Proofs.Ingest.History

/-!
# Drivers of superseded sessions

A session is superseded when another one starts after it. From then on the slot only ever holds
later streams, and its own stream is destroyed and its token cancelled. So when its driver comes to
clean up there is nothing left to do, and it touches nothing of a later session.
-/

namespace Headend.Ingest.Registry

open Plant

variable {r r' r'' r₁ : Registry} {e : Event} {es : List Event} {i k token : Nat} {x : Stream}
  {run : Run} {failFast : Bool}

/-! ## The slot moves on -/

/-- A stream gets into the slot only when it is new. -/
structure Follows (r r' : Registry) : Prop where
  size : r.streams.length ≤ r'.streams.length
  active : ∀ a, r'.active = some a → r.active = some a ∨ r.streams.length ≤ a.stream
  failFast : r'.failFast = r.failFast

theorem Follows.refl (r : Registry) : r.Follows r := ⟨Nat.le_refl _, fun _ => .inl, rfl⟩

theorem Follows.trans (hf : r.Follows r') (hf' : r'.Follows r'') : r.Follows r'' where
  size := Nat.le_trans hf.size hf'.size
  active a hoccupies := by
    obtain hbefore | hnew := hf'.active a hoccupies
    · exact hf.active a hbefore
    · exact .inr (Nat.le_trans hf.size hnew)
  failFast := hf'.failFast.trans hf.failFast

/-- The slot may have been emptied on the way. -/
theorem Follows.of_drifts {active : Option Active} {shutdown : Shutdown Teardown}
    (hd : ({ r with active := active, shutdown := shutdown } : Registry).Drifts r')
    (hkept : ∀ a, active = some a → r.active = some a) : r.Follows r' where
  size := Nat.le_of_eq hd.size.symm
  active a hoccupies := .inl (hkept a (hd.active.symm.trans hoccupies))
  failFast := hd.failFast

theorem Follows.drift (hd : r.Drifts r') : r.Follows r' := .of_drifts hd fun _ => id

theorem Follows.finishRun (r : Registry) (k : Nat) (run : Run) : r.Follows (r.finishRun k run) := by
  rw [Registry.finishRun]
  split
  · obtain ⟨_, _, hd, hkept, -⟩ := endSession_drifts
      { r with runs := r.runs.set k { run with phase := .returned } } run
    have hf := Follows.of_drifts hd fun a hoccupies => (hkept a hoccupies).1
    exact ⟨hf.size, hf.active, hf.failFast⟩
  · exact ⟨Nat.le_refl _, fun _ => .inl, rfl⟩

theorem Follows.stepRun (hstep : r.stepRun k = some r') : r.Follows r' := by
  obtain ⟨run, x, -, hstream, hstep⟩ := stepRun_cases hstep
  cases hstep with
  | start hcalled hreaders =>
    have hframe := (startRun_started (k := k) hstream).frame
    exact ⟨Nat.le_of_eq hframe.size.symm, fun a hoccupies => .inl (hframe.active ▸ hoccupies),
      hframe.failFast⟩
  | refused hcalled hreaders =>
    exact (Follows.drift (.plants (.linkToken _ _ _))).trans (.finishRun _ _ _)
  | finished hrunning hown hcancelled hreturned =>
    exact (Follows.drift (.unregisterRoutes _ _)).trans (.finishRun _ _ _)

/-- After a new session has started only its stream can be in the slot. -/
theorem startSession_active (r : Registry) (parent : Nat)
    (allocation : Except String (List Policy)) (a : Active)
    (h : (r.startSession parent allocation).1.active = some a) : r.streams.length ≤ a.stream := by
  obtain ⟨_, -, hd⟩ := r.supersede_drifts
  cases allocation with
  | error reason => cases hd.active.symm.trans h
  | ok policies =>
    obtain ⟨token, hentered⟩ := r.startSession_entered parent policies
    rw [hentered.active] at h
    cases h
    exact Nat.le_of_eq hd.size.symm

theorem Follows.startSession (r : Registry) (parent : Nat)
    (allocation : Except String (List Policy)) :
    r.Follows (r.startSession parent allocation).1 := by
  obtain ⟨_, -, hd⟩ := r.supersede_drifts
  have hmoved := startSession_active r parent allocation
  have hkept : r.streams.length ≤ r.supersede.streams.length := Nat.le_of_eq hd.size.symm
  cases allocation with
  | error reason => exact ⟨hkept, fun a hoccupies => .inr (hmoved a hoccupies), hd.failFast⟩
  | ok policies =>
    obtain ⟨token, hentered⟩ := r.startSession_entered parent policies
    refine ⟨?_, fun a hoccupies => .inr (hmoved a hoccupies), hentered.failFast.trans hd.failFast⟩
    rw [hentered.size]
    exact Nat.le_succ_of_le hkept

theorem Follows.advance (hadvanced : r.advance e = some r') : r.Follows r' := by
  cases advance_cases hadvanced with
  | start parent allocation => exact .startSession r parent allocation
  | run hstep => exact .stepRun hstep
  | trigger => exact .of_drifts (trigger_drifts r) fun _ => id
  | drift hother hd => exact .drift hd

theorem Follows.play (hplayed : r.play es = some r') : r.Follows r' :=
  play_invariant (fun hf hadvanced => hf.trans (.advance hadvanced)) (.refl r) hplayed

/-- A session of this stream has started, and another session after it. -/
def Superseded (failFast : Bool) (es : List Event) (stream : Nat) : Prop :=
  ∃ before parent allocation after r token, es = before ++ .start parent allocation :: after
    ∧ (new failFast).play before = some r ∧ ⟨stream, token⟩ ∈ r.sessions

theorem Tidy.stream_lt (h : r.Tidy) (hmem : ⟨i, token⟩ ∈ r.sessions) : i < r.streams.length := by
  obtain ⟨k, hbound, hk⟩ := List.getElem_of_mem hmem
  have hbound : k < r.streams.length := h.sessions ▸ hbound
  obtain ⟨token', x, run, ht⟩ := h.tended k hbound
  obtain ⟨rfl, -⟩ := Session.mk.inj (hk.symm.trans (List.getElem_of_getElem? ht.session).2)
  exact hbound

theorem Superseded.elsewhere (h : Superseded failFast es i)
    (hplayed : (new failFast).play es = some r) : ∀ a, r.active = some a → a.stream ≠ i := by
  obtain ⟨before, parent, allocation, after, r₁, token, rfl, hfirst, hmem⟩ := h
  rw [play_append, hfirst] at hplayed
  have hstarted : i < r₁.streams.length := ((Sound.new failFast).play hfirst).stream_lt hmem
  have hlater : (r₁.startSession parent allocation).1.Follows r := .play hplayed
  have hgrown := (Follows.startSession r₁ parent allocation).size
  -- What is in the slot now got there with the later session, or after it.
  rintro a hoccupies rfl
  obtain hentered | hnew := hlater.active a hoccupies
  · exact Nat.not_lt.mpr (startSession_active r₁ parent allocation a hentered) hstarted
  · exact Nat.not_lt.mpr (Nat.le_trans hgrown hnew) hstarted

/-! ## Nothing is left to do -/

/-- Destroyed, cancelled and out of the slot, a stream is as its driver would leave it. -/
theorem endSession_of_left (hstream : r.streams[run.stream]? = some x) (hgone : x.destroyed = true)
    (hfired : r.plant.tokens.fired run.token = true)
    (helsewhere : ∀ a, r.active = some a → a.stream ≠ run.stream) : r.endSession run = r := by
  have hspent : r.plant.cancel run.token = r.plant := by
    rw [Plant.cancel, Tokens.cancel_of_fired hfired]
  rw [endSession_of_ne helsewhere, atRelease, hspent]
  exact destroy_of_destroyed hstream hgone

theorem finishRun_of_left (hdrives : run.drives = true) (hstream : r.streams[run.stream]? = some x)
    (hgone : x.destroyed = true) (hfired : r.plant.tokens.fired run.token = true)
    (helsewhere : ∀ a, r.active = some a → a.stream ≠ run.stream) :
    r.finishRun k run = { r with runs := r.runs.set k { run with phase := .returned } } :=
  (finishRun_of_drives hdrives).trans (endSession_of_left hstream hgone hfired helsewhere)

/-- A step that leaves everything of other sessions alone. -/
structure Apart (i : Nat) (r r' : Registry) : Prop where
  active : r'.active = r.active
  shutdown : r'.shutdown = r.shutdown
  streams : ∀ j, j ≠ i → r'.streams[j]? = r.streams[j]?
  cancelled : ∀ k, k < r.plant.tokens.all.length →
    r'.plant.tokens.cancelled k = r.plant.tokens.cancelled k

theorem Tends.apart (ht : r.Tends i token x run)
    (helsewhere : ∀ a, r.active = some a → a.stream ≠ i) (hstep : r.stepRun i = some r') :
    Apart i r r' := by
  -- Out of the slot, the stream is destroyed and the token cancelled already.
  obtain ⟨tasks, hactive⟩ | ⟨hgone, hfired⟩ := ht.place
  · exact absurd rfl (helsewhere _ hactive)
  -- A new token leaves those before it as they are.
  have hlinked (k : Nat) (hbound : k < r.plant.tokens.all.length) :
      (r.plant.tokens.child run.token).1.cancelled k = r.plant.tokens.cancelled k :=
    Tokens.cancelled_append rfl hbound
  obtain ⟨rfl, rfl⟩ := And.intro ht.driven.stream ht.driven.own
  obtain ⟨_, y, hi, hstream, hstep⟩ := stepRun_cases hstep
  obtain rfl := Option.some.inj (ht.drive.symm.trans hi)
  cases hstep with
  | start hcalled hreaders =>
    have hstarted := startRun_started (k := run.stream) hstream
    refine ⟨hstarted.frame.active, hstarted.frame.shutdown, hstarted.others, fun k hbound => ?_⟩
    rw [hstarted.tokens, hlinked k hbound]
  | refused hcalled hreaders =>
    have hfired' := (Grows.linkToken r.plant run.token y.closed).tokens.fired _ hfired
    rw [finishRun_of_left (x := x)]
    · exact ⟨rfl, rfl, fun _ _ => rfl, hlinked⟩
    · exact ht.driven.drives
    · exact ht.stream
    · exact hgone
    · exact hfired'
    · exact helsewhere
  | finished hrunning hown hcancelled hreturned =>
    have hd := Drifts.unregisterRoutes r run.stream
    obtain ⟨x', hfound, hbecomes⟩ := hd.streams run.stream x ht.stream
    rw [finishRun_of_left ht.driven.drives hfound (hbecomes.destroyed hgone)
      (hd.plant.tokens.fired _ hfired) (hd.active ▸ helsewhere)]
    refine ⟨hd.active, hd.shutdown, fun j hne => unregisterRoutes_streams_of_ne r hne,
      fun k _ => ?_⟩
    exact congrArg (Tokens.cancelled · k) (congrArg Plant.tokens (r.unregisterRoutes_plant _))

/-! ## What triggers shutdown -/

theorem startSession_triggered (r : Registry) (parent : Nat)
    (allocation : Except String (List Policy)) :
    (r.startSession parent allocation).1.shutdown.triggered = r.shutdown.triggered := by
  obtain ⟨_, hsame, hd⟩ := r.supersede_drifts
  have hsuperseded : r.supersede.shutdown.triggered = r.shutdown.triggered := hd.shutdown ▸ hsame
  cases allocation with
  | error reason => exact hsuperseded
  | ok policies =>
    obtain ⟨token, hentered⟩ := r.startSession_entered parent policies
    rw [hentered.shutdown, Shutdown.triggered_add, Shutdown.triggered_add, hsuperseded]

/-- In this step a driver comes to release its stream, and the stream is in the slot. -/
structure Releases (r : Registry) (k : Nat) (r' : Registry) : Prop where
  current : ∃ run a, r.runs[k]? = some run ∧ run.phase ≠ .returned ∧ r.active = some a
    ∧ a.stream = run.stream
  returned : ∃ run, r'.runs[k]? = some run ∧ run.phase = .returned

/-- A run that returns triggers shutdown if its stream is in the slot. -/
theorem Tends.finishRun_triggered {run' : Run} (ht : r.Tends k token x run) (hd : r.Drifts r₁)
    (hc : run.Continues run') (hunfinished : run.phase ≠ .returned) :
    (r₁.finishRun k run').shutdown.triggered = true ↔ r.shutdown.triggered = true
      ∨ r.failFast = true ∧ r.Releases k (r₁.finishRun k run') := by
  have hdrives : run'.drives = true := hc.drives.trans ht.driven.drives
  have hstream : run'.stream = k := hc.stream.trans ht.driven.stream
  have hreleases : r.Releases k (r₁.finishRun k run') ↔ ∃ a, r.active = some a ∧ a.stream = k := by
    constructor
    · rintro ⟨⟨_, a, hk, -, hactive, hsame⟩, -⟩
      obtain rfl := Option.some.inj (ht.drive.symm.trans hk)
      exact ⟨a, hactive, hsame.trans ht.driven.stream⟩
    · rintro ⟨a, hactive, hsame⟩
      have hreturned := finishRun_returned (hd.runs ▸ ht.drive) hdrives
      have hown := hsame.trans ht.driven.stream.symm
      exact ⟨⟨run, a, ht.drive, hunfinished, hactive, hown⟩, _, hreturned, rfl⟩
  obtain ⟨_, _, hends, -, htriggers⟩ := endSession_drifts
    { r₁ with runs := r₁.runs.set k { run' with phase := .returned } } run'
  rw [hreleases, finishRun_of_drives hdrives, hends.shutdown, htriggers, hstream]
  simp only [hd.shutdown, hd.failFast, hd.active]

theorem Sound.stepRun_triggered (h : r.Sound) (hstep : r.stepRun k = some r') :
    r'.shutdown.triggered = true ↔
      r.shutdown.triggered = true ∨ r.failFast = true ∧ r.Releases k r' := by
  obtain ⟨run, y, hk, hstream, hstep⟩ := stepRun_cases hstep
  obtain ⟨token, x, ht⟩ := h.toTidy.tends hk
  cases hstep with
  | start hcalled hreaders =>
    have hstarted := startRun_started (k := k) hstream
    -- A run that has just started has not returned.
    have hunreleased : ¬ r.Releases k (r.startRun k run y) := by
      intro hreleases
      obtain ⟨run', hfound, hreturned⟩ := hreleases.returned
      have hsize := (List.getElem?_eq_some_iff.mp hk).1
      rw [hstarted.runs, List.getElem?_set_self hsize] at hfound
      cases hfound
      cases hreturned
    rw [hstarted.frame.shutdown]
    simp only [hunreleased, and_false, or_false]
  | refused hcalled hreaders =>
    have hlinked := Drifts.plants (.linkToken r.plant run.token y.closed)
    exact ht.finishRun_triggered hlinked ⟨rfl, rfl, rfl⟩ (hcalled ▸ nofun)
  | finished hrunning hown hcancelled hreturned =>
    exact ht.finishRun_triggered (.unregisterRoutes _ _) ⟨rfl, rfl, rfl⟩ (hrunning ▸ nofun)

/-- An event that triggers shutdown: the trigger itself, or the end of a driver that fails fast. -/
def Triggers (r : Registry) (e : Event) (r' : Registry) : Prop :=
  e = .trigger ∨ r.failFast = true ∧ ∃ k, e = .step (.run k) ∧ r.Releases k r'

theorem Sound.advance_triggered (h : r.Sound) (hadvanced : r.advance e = some r') :
    r'.shutdown.triggered = true ↔ r.shutdown.triggered = true ∨ r.Triggers e r' := by
  rw [Triggers]
  cases advance_cases hadvanced with
  | start parent allocation => simp [startSession_triggered]
  | run hstep => simpa using h.stepRun_triggered hstep
  | trigger => simp [(trigger_drifts r).shutdown, Shutdown.triggered_trigger]
  | drift hother hd =>
    -- No run moves.
    have hunreleased (k : Nat) : ¬ r.Releases k r' := by
      intro hreleases
      obtain ⟨run, _, hfound, hunfinished, -⟩ := hreleases.current
      obtain ⟨run', hfound', hreturned⟩ := hreleases.returned
      rw [hd.runs, hfound] at hfound'
      obtain rfl := Option.some.inj hfound'
      exact hunfinished hreturned
    simp only [hd.shutdown, hother, hunreleased, and_false, exists_false, or_false]

/-- Shutdown is triggered after a history if it was before, or if an event of the history did it. -/
theorem Sound.play_triggered (h : r.Sound) (hplayed : r.play es = some r') :
    r'.shutdown.triggered = true ↔ r.shutdown.triggered = true
      ∨ ∃ before e after r₁ r₂, es = before ++ e :: after ∧ r.play before = some r₁
        ∧ r₁.advance e = some r₂ ∧ r₁.Triggers e r₂ := by
  induction es generalizing r with
  | nil =>
    obtain rfl := Option.some.inj hplayed
    simp
  | cons e es ih =>
    obtain ⟨next, hadvanced, hrest⟩ := Option.bind_eq_some_iff.mp hplayed
    rw [ih (h.advance hadvanced) hrest, h.advance_triggered hadvanced, or_assoc]
    -- The event that did it is the first one, or it is one of the rest.
    refine or_congr_right ⟨?_, ?_⟩
    · rintro (hnow | ⟨before, e', after, r₁, r₂, rfl, hearly, hevent, htriggers⟩)
      · exact ⟨[], e, es, r, next, rfl, rfl, hadvanced, hnow⟩
      · refine ⟨e :: before, e', after, r₁, r₂, rfl, ?_, hevent, htriggers⟩
        exact Option.bind_eq_some_iff.mpr ⟨next, hadvanced, hearly⟩
    · rintro ⟨before, e', after, r₁, r₂, hsplit, hearly, hevent, htriggers⟩
      cases before with
      | nil =>
        obtain ⟨rfl, rfl⟩ := List.cons.inj hsplit
        obtain rfl := Option.some.inj hearly
        obtain rfl := Option.some.inj (hadvanced.symm.trans hevent)
        exact .inl htriggers
      | cons e₁ before =>
        obtain ⟨rfl, rfl⟩ := List.cons.inj hsplit
        obtain ⟨next', hadvanced', hearly⟩ := Option.bind_eq_some_iff.mp hearly
        obtain rfl := Option.some.inj (hadvanced.symm.trans hadvanced')
        exact .inr ⟨before, e', after, r₁, r₂, rfl, hearly, hevent, htriggers⟩

/-! ## In every history -/

/-- The driver of a superseded session does nothing to a later one. The shutdown is triggered if
somebody did so, or if a driver that fails fast came to release the stream in the slot, and only
then. -/
theorem superseded_apart (hplayed : (new failFast).play es = some r) :
    (∀ k run r', r.runs[k]? = some run → Superseded failFast es run.stream →
      r.step (.run k) = some r' → Apart run.stream r r')
    ∧ (r.shutdown.triggered = true ↔
      ∃ before e after r₁ r₂, es = before ++ e :: after ∧ (new failFast).play before = some r₁
        ∧ r₁.advance e = some r₂
        ∧ (e = .trigger ∨ failFast = true ∧ ∃ k, e = .step (.run k) ∧ r₁.Releases k r₂)) := by
  have hsound := (Sound.new failFast).play hplayed
  constructor
  · intro k run r' hk hsuperseded hstep
    obtain ⟨token, x, ht⟩ := hsound.toTidy.tends hk
    have hown := ht.driven.stream
    exact hown ▸ ht.apart (hown ▸ hsuperseded.elsewhere hplayed) hstep
  · have hfixed {before : List Event} {r₁ : Registry}
        (hearly : (new failFast).play before = some r₁) : r₁.failFast = failFast :=
      (Follows.play hearly).failFast
    rw [(Sound.new failFast).play_triggered hplayed]
    constructor
    · rintro (halready | ⟨before, e, after, r₁, r₂, hsplit, hearly, hevent, htriggers⟩)
      · cases halready
      rw [Triggers.eq_def, hfixed hearly] at htriggers
      exact ⟨before, e, after, r₁, r₂, hsplit, hearly, hevent, htriggers⟩
    · rintro ⟨before, e, after, r₁, r₂, hsplit, hearly, hevent, htriggers⟩
      rw [← hfixed hearly] at htriggers
      exact .inr ⟨before, e, after, r₁, r₂, hsplit, hearly, hevent, htriggers⟩

/-- A session at work loses the slot to another one, and its processor notices. -/
def handover : List Event :=
  [.token none, .start 1 (.ok [.consume]), .step (.run 0), .step (.plant (.consumer 0)),
    .start 1 (.ok [.consume]), .step (.plant (.link 0)), .step (.plant (.consumer 0))]

/-- Then the processor of the second session returns, and after it the driver. -/
def failure : List Event :=
  handover ++ [.step (.run 0), .step (.run 1), .step (.plant (.consumer 1)), .exit 1,
    .step (.run 1)]

theorem superseded_apart_in_handover :
    (∃ r r', (new true).play handover = some r ∧ Superseded true handover 0
      ∧ r.step (.run 0) = some r' ∧ r'.runs.map Run.phase = [.returned, .called]
      ∧ r'.active = some ⟨1, 6, [2, 3]⟩ ∧ r'.plant.tokens.cancelled 6 = false)
    ∧ ∃ before e after r₁ r₂, failure = before ++ e :: after ∧ (new true).play before = some r₁
      ∧ r₁.advance e = some r₂ ∧ ∃ k, e = .step (.run k) ∧ r₁.Releases k r₂ := by
  constructor
  · obtain ⟨r, hplayed⟩ := Option.isSome_iff_exists.mp
      (by decide +kernel : ((new true).play handover).isSome = true)
    have hfacts : ((new true).play handover).all fun r => r.active = some ⟨1, 6, [2, 3]⟩
        ∧ 6 < r.plant.tokens.all.length ∧ r.plant.tokens.cancelled 6 = false
        ∧ r.runs[0]? = some ⟨0, 3, some 4, true, .running⟩
        ∧ (r.step (.run 0)).any fun r' => r'.runs.map Run.phase = [.returned, .called] := by
      decide +kernel
    rw [hplayed, Option.all_some, decide_eq_true_eq] at hfacts
    obtain ⟨hactive, hsize, huncancelled, hdriver, hmoves⟩ := hfacts
    obtain ⟨r', hstep, hphases⟩ := (Option.any_eq_true _ _).mp hmoves
    have hsuperseded : Superseded true handover 0 := by
      obtain ⟨r₁, hearly⟩ := Option.isSome_iff_exists.mp
        (by decide +kernel : ((new true).play (handover.take 4)).isSome = true)
      have hstarted : ((new true).play (handover.take 4)).all fun r => ⟨0, 3⟩ ∈ r.sessions := by
        decide +kernel
      rw [hearly, Option.all_some, decide_eq_true_eq] at hstarted
      exact ⟨handover.take 4, 1, .ok [.consume], handover.drop 5, r₁, 3, rfl, hearly, hstarted⟩
    have hapart := (superseded_apart hplayed).1 0 _ r' hdriver hsuperseded hstep
    refine ⟨r, r', hplayed, hsuperseded, hstep, of_decide_eq_true hphases, ?_, ?_⟩
    · exact hapart.active.trans hactive
    · exact (hapart.cancelled 6 hsize).trans huncancelled
  · obtain ⟨r, hplayed⟩ := Option.isSome_iff_exists.mp
      (by decide +kernel : ((new true).play failure).isSome = true)
    have hfacts : ((new true).play failure).all fun r => r.shutdown.triggered := by decide +kernel
    rw [hplayed, Option.all_some] at hfacts
    obtain ⟨before, e, after, r₁, r₂, hsplit, hearly, hevent, htriggers⟩ :=
      (superseded_apart hplayed).2.mp hfacts
    refine ⟨before, e, after, r₁, r₂, hsplit, hearly, hevent, ?_⟩
    -- Nobody triggers it from outside, so it was a driver.
    obtain rfl | hdriver := htriggers
    · have hinside : Event.trigger ∈ failure := by rw [hsplit]; simp
      simp [failure, handover] at hinside
    · exact hdriver.2

end Headend.Ingest.Registry
