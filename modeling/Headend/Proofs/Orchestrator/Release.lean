import Headend.Proofs.Orchestrator.Stages

/-!
# What a stopped orchestrator has released

`Kept` is what holds of an orchestrator at any time: for each resource that it took, the teardown is
due or done. Once it was started and stopped and no task can move, everything is released, whether
the teardown was registered before the stop or after it.
-/

namespace Headend.Orchestrator

open Media Plant Ingest Hls

variable {o o' : Orchestrator} {ts : List Teardown} {waiting : List (Sides Nat × Nat)}
  {pipes : Sides Nat} {es : List Event} {e : Event} {w w' : Site} {name : String}

/-! ## Before and after the start -/

/-- Only teardown tasks of the outside world are due, and no processor was called or destroyed. -/
structure Untouched (o : Orchestrator) : Prop where
  due : ∀ t ∈ o.due, ∃ name, t = .other name
  processors : ∀ (i : Nat) (q : Ingest.Processor), o.processors[i]? = some q →
    q.consumer = none ∧ q.destroys = 0

/-- The start has made these pipes, and registered for teardown whatever it was to release. -/
structure Begun (o : Orchestrator) (waiting : List (Sides Nat × Nat)) (pipes : Sides Nat) :
    Prop where
  bound : ∀ side, pipes.get side < o.plant.pipes.length
  closes : .closePipes pipes ∈ o.due ∨ ∀ side, (o.plant.pipes.get (pipes.get side)).closed = true
  destroys : ∀ (i : Nat) (q : Ingest.Processor), o.processors[i]? = some q →
    q.destroys + o.due.count (.destroy i) = 1
  works : ∀ (i : Nat) (q : Ingest.Processor) (c : Nat), o.processors[i]? = some q →
    q.consumer = some c → o.plant.Works c o.root
  /-- Once the launch is under way, it has called a processor or is going to. -/
  called : o.launch ≠ .called → ∀ (i : Nat) (q : Ingest.Processor), o.processors[i]? = some q →
    q.consumer = none → i ∈ waiting.map Prod.snd

theorem Begun.owes (h : Begun o waiting pipes) (howes : Owes ts o o')
    (hspared : ∀ i, .destroy i ∉ ts) : Begun o' waiting pipes where
  bound side := Nat.lt_of_lt_of_le (h.bound side) howes.plant.pipes.size
  closes := by
    obtain hasked | hclosed := h.closes
    · exact howes.closed (List.mem_append_left _ hasked) h.bound
    · exact .inr fun side => howes.plant.pipes.closed _ (h.bound side) (hclosed side)
  destroys i q hfound := by
    obtain ⟨p, hbefore, -, -, hsum⟩ := howes.processor hfound
    rw [hsum, h.destroys i p hbefore, List.count_eq_zero.mpr (hspared i)]
  works i q c hfound hconsumer := by
    obtain ⟨p, hbefore, -, hsame, -⟩ := howes.processor hfound
    rw [howes.alike.root]
    exact howes.plant.works _ _ (h.works i p c hbefore (hsame.symm.trans hconsumer))
  called hlaunch i q hfound hconsumer := by
    obtain ⟨p, hbefore, -, hsame, -⟩ := howes.processor hfound
    exact h.called (howes.alike.launch ▸ hlaunch) i p hbefore (hsame.symm.trans hconsumer)

theorem Untouched.owes (h : Untouched o) (howes : Owes ts o o')
    (hothers : ∀ t ∈ ts, ∃ name, t = .other name) : Untouched o' where
  due t hmem := by
    obtain ⟨ran, -, hperm⟩ := howes.ran
    obtain hold | hnew := List.mem_append.mp (hperm.subset (List.mem_append_left _ hmem))
    · exact h.due t hold
    · exact hothers t hnew
  processors i q hfound := by
    obtain ⟨p, hbefore, -, hconsumer, hsum⟩ := howes.processor hfound
    obtain ⟨hnone, hzero⟩ := h.processors i p hbefore
    have hundue : o.due.count (.destroy i) = 0 := List.count_eq_zero.mpr fun hmem => by
      obtain ⟨name, hother⟩ := h.due _ hmem
      cases hother
    have hunasked : ts.count (.destroy i) = 0 := List.count_eq_zero.mpr fun hmem => by
      obtain ⟨name, hother⟩ := hothers _ hmem
      cases hother
    exact ⟨hconsumer.trans hnone, by omega⟩

/-! ## At any time -/

structure Kept (o : Orchestrator) (waiting : List (Sides Nat × Nat)) : Prop where
  root : o.root < o.plant.tokens.all.length
  fired : o.Fired
  own : ∀ c, o.control = some c → o.processors.map Processor.policy = c.processors
  route : ∀ k i, o.router.active = some (k, .ofControl i) → .unregister k ∈ o.due
  waits : o.launch ≠ .running → waiting = []
  idle : o.launch = .notCalled → Untouched o
  begun : o.launch ≠ .notCalled → ∃ pipes, o.pipes = some pipes ∧ Begun o waiting pipes

theorem Kept.new (name : String) : Kept (Orchestrator.new name) [] where
  root := Nat.zero_lt_one
  fired := by rintro ⟨⟩
  own := by rintro c ⟨⟩
  route := by rintro k i ⟨⟩
  waits _ := rfl
  idle _ := ⟨fun _ hmem => absurd hmem List.not_mem_nil, by rintro i q ⟨⟩⟩
  begun h := absurd rfl h

/-- Teardown tasks of the outside world come and run, and the plant goes on. -/
theorem Kept.owes (h : Kept o waiting) (howes : Owes ts o o')
    (hothers : ∀ t ∈ ts, ∃ name, t = .other name) : Kept o' waiting where
  root := by
    rw [howes.alike.root]
    exact Nat.lt_of_lt_of_le h.root howes.plant.tokens.size
  fired := howes.fired h.root h.fired
  own c hcontrol := howes.policies.trans (h.own c (howes.alike.control.symm.trans hcontrol))
  route k i hactive := by
    obtain ⟨hbefore, hstill⟩ := howes.route hactive
    exact hstill (List.mem_append_left _ (h.route k i hbefore))
  waits := by
    rw [howes.alike.launch]
    exact h.waits
  idle hlaunch := (h.idle (howes.alike.launch.symm.trans hlaunch)).owes howes hothers
  begun hlaunch := by
    obtain ⟨pipes, hown, hbegun⟩ := h.begun (howes.alike.launch ▸ hlaunch)
    refine ⟨pipes, howes.alike.pipes.trans hown, hbegun.owes howes fun i hmem => ?_⟩
    obtain ⟨name, hother⟩ := hothers _ hmem
    cases hother

theorem Kept.register {c : Control} (h : Kept o waiting) (hidle : o.launch = .notCalled)
    (hok : o.register c = .ok o') : Kept o' waiting := by
  obtain ⟨-, rfl⟩ := register_eq_ok hok
  refine ⟨h.root, h.fired, ?_, h.route, h.waits, fun _ => ⟨(h.idle hidle).due, ?_⟩, absurd hidle⟩
  · rintro c' ⟨⟩
    exact (List.map_map ..).trans (List.map_id' _)
  · intro i q hfound
    obtain ⟨policy, -, rfl⟩ := List.mem_map.mp (List.mem_of_getElem? hfound)
    exact ⟨rfl, rfl⟩

theorem Kept.start (h : Kept o waiting) (hidle : o.launch = .notCalled) (hok : o.start = .ok o') :
    Kept o' waiting := by
  obtain ⟨c, hassigned, -, howes⟩ := start_eq_ok hok
  have huntouched := h.idle hidle
  have hundue (i : Nat) : o.due.count (.destroy i) = 0 := List.count_eq_zero.mpr fun hmem => by
    obtain ⟨name, hother⟩ := huntouched.due _ hmem
    cases hother
  have hgrown : o.plant.Extends (o.readied c).plant := by
    refine .of_fans (.of_eq rfl rfl rfl) ?_ rfl
    exact .trans (.append _ _) (.append _ _)
  constructor
  case root =>
    rw [howes.alike.root]
    exact Nat.lt_of_lt_of_le h.root howes.plant.tokens.size
  case fired =>
    exact howes.fired (Nat.lt_of_lt_of_le h.root hgrown.tokens.size)
      (h.fired.carry hgrown.toGrows rfl rfl)
  case own =>
    intro c' hcontrol
    exact howes.policies.trans (h.own c' (howes.alike.control.symm.trans hcontrol))
  case route =>
    intro k i hactive
    obtain ⟨hbefore, hstill⟩ := howes.route hactive
    exact hstill (List.mem_append_left _ (h.route k i hbefore))
  case waits => exact fun _ => h.waits (by rw [hidle]; rintro ⟨⟩)
  case idle =>
    rw [howes.alike.launch]
    rintro ⟨⟩
  case begun =>
    intro _
    have hbound (side : Side) : o.nextPipes.get side < (o.readied c).plant.pipes.length := by
      cases side <;> simp [nextPipes, readied, addPipe, Sides.get]
    refine ⟨o.nextPipes, howes.alike.pipes, ?_, ?_, ?_, ?_, ?_⟩
    · exact fun side => Nat.lt_of_lt_of_le (hbound side) howes.plant.pipes.size
    · exact howes.closed (List.mem_append_right _ List.mem_cons_self) hbound
    · intro i q hfound
      obtain ⟨p, hbefore, -, -, hsum⟩ := howes.processor hfound
      have hwithin : i < c.processors.length := by
        rw [← h.own c hassigned, List.length_map]
        exact (List.getElem?_eq_some_iff.mp hbefore).1
      have hpledged : (o.pledges c).count (.destroy i) = 1 := by
        have honce : (List.range c.processors.length).count i = 1 :=
          List.nodup_range.count.trans (if_pos (List.mem_range.mpr hwithin))
        rw [pledges, List.count_cons_of_ne (by rintro ⟨⟩), List.count, List.countP_map, ← honce]
        exact List.countP_congr fun j _ => by simp
      rw [hsum, hpledged, (huntouched.processors i p hbefore).2]
      exact congrArg (· + 1) ((Nat.zero_add _).trans (hundue i))
    · intro i q c hfound hconsumer
      obtain ⟨p, hbefore, -, hsame, -⟩ := howes.processor hfound
      cases (hsame.symm.trans hconsumer).symm.trans (huntouched.processors i p hbefore).1
    · intro hlaunch
      exact absurd howes.alike.launch hlaunch

/-! ### The launch -/

theorem Kept.launch (h : Kept o waiting) (hcalled : o.launch = .called)
    (hown : o.pipes = some pipes) :
    Kept { o with
        plant := (o.plant.split o.processors.length o.root pipes).1
        launch := .running }
      (o.plant.split o.processors.length o.root pipes).2.zipIdx := by
  have hsplit := Extends.split o.plant o.processors.length o.root pipes
  obtain ⟨pipes', hown', hbegun⟩ := h.begun (by rw [hcalled]; rintro ⟨⟩)
  cases hown.symm.trans hown'
  constructor
  case root => exact Nat.lt_of_lt_of_le h.root hsplit.tokens.size
  case fired => exact h.fired.carry hsplit.toGrows rfl rfl
  case own => exact h.own
  case route => exact h.route
  case waits => exact absurd rfl
  case idle => rintro ⟨⟩
  case begun =>
    intro _
    refine ⟨pipes, hown, ?_, ?_, hbegun.destroys, ?_, ?_⟩
    · exact fun side => Nat.lt_of_lt_of_le (hbegun.bound side) hsplit.pipes.size
    · exact hbegun.closes.imp_right fun hclosed side =>
        hsplit.pipes.closed _ (hbegun.bound side) (hclosed side)
    · exact fun i q c hfound hconsumer => hsplit.works _ _ (hbegun.works i q c hfound hconsumer)
    · intro _ i q hfound _
      rw [List.zipIdx_map_snd, length_split]
      exact List.mem_range'_1.mpr ⟨Nat.zero_le i,
        (Nat.zero_add _).symm ▸ (List.getElem?_eq_some_iff.mp hfound).1⟩

/-- A processor is called, on a token that the trigger cancels. -/
theorem Begun.enrol {i : Nat} {inputs : Sides Nat} (h : Begun o ((inputs, i) :: waiting) pipes)
    (hlaunched : o.launch ≠ .called) (policy : Policy) : Begun { o with
      plant := (o.plant.addConsumer (.new policy o.root false inputs)).1
      processors := o.processors.modify i fun q =>
        { q with consumer := some o.plant.consumers.length } } waiting pipes := by
  have hbefore {j : Nat} {q : Ingest.Processor} (hfound : (o.processors.modify i fun q =>
      { q with consumer := some o.plant.consumers.length })[j]? = some q) :
      ∃ p, o.processors[j]? = some p ∧ q.destroys = p.destroys ∧
        (j = i ∧ q.consumer = some o.plant.consumers.length ∨ j ≠ i ∧ q = p) := by
    rw [List.getElem?_modify, Option.map_eq_map] at hfound
    obtain ⟨p, hj, rfl⟩ := Option.map_eq_some_iff.mp hfound
    refine ⟨p, hj, ?_⟩
    split
    case isTrue hsame => exact ⟨rfl, .inl ⟨hsame.symm, rfl⟩⟩
    case isFalse hother => exact ⟨rfl, .inr ⟨fun hsame => hother hsame.symm, rfl⟩⟩
  refine ⟨h.bound, h.closes, ?_, ?_, ?_⟩
  · intro j q hfound
    obtain ⟨p, hj, hdestroys, -⟩ := hbefore hfound
    rw [hdestroys]
    exact h.destroys j p hj
  · intro j q c hfound hconsumer
    obtain ⟨p, hj, -, ⟨-, hown⟩ | ⟨-, rfl⟩⟩ := hbefore hfound
    · cases hown.symm.trans hconsumer
      exact works_addConsumer _ _
    · exact (Grows.addConsumer o.plant _).works _ _ (h.works j q c hj hconsumer)
  · intro _ j q hfound hconsumer
    obtain ⟨p, hj, -, ⟨-, hown⟩ | ⟨hother, rfl⟩⟩ := hbefore hfound
    · cases hown.symm.trans hconsumer
    · obtain rfl | hlater := List.mem_cons.mp (h.called hlaunched j q hj hconsumer)
      · exact absurd rfl hother
      · exact hlater

theorem Kept.call {i : Nat} {inputs : Sides Nat} (h : Kept o ((inputs, i) :: waiting)) :
    Kept (o.startProcessor i inputs) waiting := by
  -- A launch that has processors to call is under way.
  have hrunning : o.launch = .running :=
    Decidable.byContradiction fun hidle => absurd (h.waits hidle) (List.cons_ne_nil _ _)
  have hlaunched : o.launch ≠ .called := by rw [hrunning]; rintro ⟨⟩
  obtain ⟨pipes, hown, hbegun⟩ := h.begun (by rw [hrunning]; rintro ⟨⟩)
  cases hfound : o.processors[i]? with
  | none =>
    rw [startProcessor, hfound]
    refine ⟨h.root, h.fired, h.own, h.route, fun hidle => ?_, h.idle, fun _ => ?_⟩
    · exact absurd hrunning hidle
    refine ⟨pipes, hown, hbegun.bound, hbegun.closes, hbegun.destroys, hbegun.works, ?_⟩
    intro _ j q hj hconsumer
    obtain rfl | hlater := List.mem_cons.mp (hbegun.called hlaunched j q hj hconsumer)
    · cases hj.symm.trans hfound
    · exact hlater
  | some q =>
    obtain ⟨routed, howes, heq⟩ := startProcessor_eq hfound inputs
    have hgrown := Grows.addConsumer routed.plant (.new q.policy routed.root false inputs)
    rw [heq]
    constructor
    case root =>
      change routed.root < _
      rw [howes.alike.root]
      exact Nat.lt_of_lt_of_le h.root howes.plant.tokens.size
    case fired => exact (howes.fired h.root (h.fired.carry (.refl _) rfl rfl)).carry hgrown rfl rfl
    case own =>
      intro c hcontrol
      have hpolicies : (routed.processors.modify i fun q =>
          { q with consumer := some routed.plant.consumers.length }).map Processor.policy
          = routed.processors.map Processor.policy := by
        apply List.ext_getElem?
        intro j
        rw [List.getElem?_map, List.getElem?_map, List.getElem?_modify]
        cases routed.processors[j]? with
        | none => rfl
        | some p =>
          simp only [Option.map_eq_map, Option.map_some]
          split <;> rfl
      exact (hpolicies.trans howes.policies).trans
        (h.own c (howes.alike.control.symm.trans hcontrol))
    case route =>
      intro k j hactive
      obtain ⟨hnewest, hstill⟩ := howes.route hactive
      cases hnewest
      exact hstill (List.mem_append_right _ (List.mem_singleton_self _))
    case waits => exact absurd (howes.alike.launch.trans hrunning)
    case idle =>
      intro hidle
      cases (howes.alike.launch.trans hrunning).symm.trans hidle
    case begun =>
      intro _
      have hregistered : Begun { o with router := (o.router.register (.ofControl i)).1 }
          ((inputs, i) :: waiting) pipes :=
        ⟨hbegun.bound, hbegun.closes, hbegun.destroys, hbegun.works, hbegun.called⟩
      have hpledged := hregistered.owes howes (by simp)
      exact ⟨pipes, howes.alike.pipes.trans hown,
        hpledged.enrol (fun hcalled => hlaunched (howes.alike.launch.symm.trans hcalled)) q.policy⟩

theorem Kept.join (h : Kept o waiting) (hrunning : o.launch = .running) (hspent : waiting = []) :
    Kept { o with launch := .done } waiting := by
  refine ⟨h.root, h.fired, h.own, h.route, fun _ => hspent, by rintro ⟨⟩, fun _ => ?_⟩
  obtain ⟨pipes, hown, hbegun⟩ := h.begun (by rw [hrunning]; rintro ⟨⟩)
  refine ⟨pipes, hown, hbegun.bound, hbegun.closes, hbegun.destroys, hbegun.works, fun _ => ?_⟩
  exact hbegun.called (by rw [hrunning]; rintro ⟨⟩)

/-- The state is nothing that the teardown looks at. -/
theorem Kept.restate (h : Kept o waiting) (state : State) :
    Kept { o with state := state } waiting := by
  refine ⟨h.root, h.fired, h.own, h.route, h.waits, fun hidle => ?_, fun hlaunched => ?_⟩
  · exact ⟨(h.idle hidle).due, (h.idle hidle).processors⟩
  · obtain ⟨pipes, hown, hbegun⟩ := h.begun hlaunched
    exact ⟨pipes, hown, hbegun.bound, hbegun.closes, hbegun.destroys, hbegun.works, hbegun.called⟩

theorem Kept.deed (h : Kept w.orchestrator w.waiting) (hstaged : Staged es w.orchestrator)
    (hdeed : w.Deed e w') : Kept w'.orchestrator w'.waiting := by
  cases hdeed with
  | register hok => exact h.register (hstaged.unassigned (register_eq_ok hok).1).1 hok
  | start hok =>
    obtain ⟨c, -, hregistered, -⟩ := start_eq_ok hok
    exact h.start (hstaged.registered hregistered) hok
  | stop =>
    change Kept w.orchestrator.stop _
    rw [Orchestrator.stop]
    split
    · exact h
    · exact (h.restate .stopped).owes (trigger_owes _).1 fun _ hmem => absurd hmem List.not_mem_nil
  | launch hcalled hown => exact h.launch hcalled hown
  | call hnext => exact (hnext ▸ h).call
  | join hrunning hspent hreturned => exact h.join hrunning hspent
  | other hregisters hstarts hstops howes hothers => exact h.owes howes hothers

/-- Whoever is stopped has triggered shutdown. -/
def Halted (o : Orchestrator) : Prop := o.state = .stopped → o.shutdown.triggered = true

theorem startProcessor_triggered (o : Orchestrator) (i : Nat) (inputs : Sides Nat)
    (htriggered : o.shutdown.triggered = true) :
    (o.startProcessor i inputs).shutdown.triggered = true := by
  cases hfound : o.processors[i]? with
  | none =>
    rw [startProcessor, hfound]
    exact htriggered
  | some q =>
    obtain ⟨routed, howes, heq⟩ := startProcessor_eq hfound inputs
    rw [heq]
    exact howes.triggered htriggered

theorem stop_triggered (o : Orchestrator) (h : o.Halted) : o.stop.shutdown.triggered = true := by
  rw [Orchestrator.stop]
  split
  case isTrue hstopped => exact h hstopped
  case isFalse => exact (trigger_owes _).2

theorem triggered_of_deed (h : Halted w.orchestrator) (hdeed : w.Deed e w')
    (htriggered : w.orchestrator.shutdown.triggered = true) :
    w'.orchestrator.shutdown.triggered = true := by
  cases hdeed with
  | register hok =>
    obtain ⟨-, rfl⟩ := register_eq_ok hok
    exact htriggered
  | start hok =>
    obtain ⟨c, -, -, howes⟩ := start_eq_ok hok
    exact howes.triggered htriggered
  | stop => exact stop_triggered _ h
  | launch | join => exact htriggered
  | call hnext => exact startProcessor_triggered _ _ _ htriggered
  | other hregisters hstarts hstops howes => exact howes.triggered htriggered

theorem Halted.deed (h : Halted w.orchestrator) (hdeed : w.Deed e w') : Halted w'.orchestrator := by
  intro hstopped
  cases hdeed.turn with
  | register hfree hcontrol hstate => cases hstate.symm.trans hstopped
  | start hassigned hregistered hcontrol hstate => cases hstate.symm.trans hstopped
  | stop =>
    cases hdeed with
    | stop => exact stop_triggered _ h
    | other hregisters hstarts hstops => exact absurd rfl hstops
  | other hregisters hstarts hstops hstays =>
    exact triggered_of_deed h hdeed (h (hstays.state.symm.trans hstopped))

/-! ## Released -/

/-- Everything that the orchestrator took for this control has been released. -/
structure Released (c : Control) (o : Orchestrator) : Prop where
  /-- Each processor of the control was destroyed once. -/
  processors : o.processors.map (fun q => (q.policy, q.destroys)) = c.processors.map (·, 1)
  pipes : ∃ pipes, o.pipes = some pipes ∧
    ∀ side, (o.plant.pipes.get (pipes.get side)).closed = true
  route : ∀ k i, o.router.active ≠ some (k, .ofControl i)
  pending : o.shutdown.pending = 0
  done : o.launch = .done

/-- What holds at any time. -/
structure Lawful (w : Site) : Prop where
  staged : ∃ es, Staged es w.orchestrator
  kept : Kept w.orchestrator w.waiting
  halted : Halted w.orchestrator

theorem Lawful.new (name : String) : Lawful (.new name) :=
  ⟨⟨[], .new name⟩, .new name, by rintro ⟨⟩⟩

theorem Lawful.advance (h : Lawful w) (hadvanced : w.advance e = some w') : Lawful w' := by
  obtain ⟨es, hstaged⟩ := h.staged
  have hdeed := Site.advance_deed hadvanced
  exact ⟨⟨es ++ [e], hstaged.turn hdeed.turn⟩, h.kept.deed hstaged hdeed, h.halted.deed hdeed⟩

theorem Lawful.play (h : Lawful w) (hplayed : w.play es = some w') : Lawful w' :=
  Site.play_invariant .advance h hplayed

theorem triggered_of_play (h : Lawful w) (htriggered : w.orchestrator.shutdown.triggered = true)
    (hplayed : w.play es = some w') : w'.orchestrator.shutdown.triggered = true := by
  have hboth := Site.play_invariant
    (P := fun w => Lawful w ∧ w.orchestrator.shutdown.triggered = true)
    (fun h hadvanced => ⟨h.1.advance hadvanced,
      triggered_of_deed h.1.halted (Site.advance_deed hadvanced) h.2⟩) ⟨h, htriggered⟩ hplayed
  exact hboth.2

/-- A consumer whose token is cancelled with the root token has returned when it can make no
step. -/
theorem processorsReturned_of_rest (hbegun : Begun o waiting pipes)
    (hfired : o.plant.tokens.fired o.root = true) (hrest : ∀ t, o.plant.step t = none) :
    o.processorsReturned = true := by
  rw [processorsReturned, List.all_eq_true]
  intro q hmem
  obtain ⟨i, hfound⟩ := List.getElem?_of_mem hmem
  cases hcalled : q.consumer with
  | none => rfl
  | some k =>
    obtain ⟨c, hk, htoken⟩ := hbegun.works i q k hfound hcalled
    have hcancelled : o.plant.tokens.cancelled c.token = true :=
      htoken ▸ Tokens.cancelled_of_fired hfired
    simp [hk, Consumer.returned_of_rest hk (hrest _) hcancelled]

theorem released_of_settled (h : Lawful w) (hlaunched : w.orchestrator.launch ≠ .notCalled)
    (htriggered : w.orchestrator.shutdown.triggered = true) (hsettled : w.Settled) :
    ∃ c, w.orchestrator.control = some c ∧ Released c w.orchestrator := by
  obtain ⟨es, hstaged⟩ := h.staged
  obtain ⟨hrest, hlaunch, hcall, hjoin⟩ := hsettled
  obtain ⟨hfired, hundue⟩ := h.kept.fired htriggered
  obtain ⟨pipes, hown, hbegun⟩ := h.kept.begun hlaunched
  have hassigned : w.orchestrator.control ≠ none :=
    fun hfree => hlaunched (hstaged.unassigned hfree).1
  obtain ⟨c, hcontrol⟩ := Option.ne_none_iff_exists'.mp hassigned
  have hspent : w.waiting = [] := by
    cases hnext : w.waiting with
    | nil => rfl
    | cons input waiting =>
      rw [Site.advance, hnext] at hcall
      cases hcall
  have hunderWay : w.orchestrator.launch ≠ .called := by
    intro hcalled
    rw [Site.advance, hcalled, hown] at hlaunch
    cases hlaunch
  have hreturned := processorsReturned_of_rest hbegun hfired hrest
  refine ⟨c, hcontrol, ?_, ⟨pipes, hown, ?_⟩, ?_, ?_, ?_⟩
  · rw [← h.kept.own c hcontrol, List.map_map]
    apply List.map_congr_left
    intro q hmem
    obtain ⟨i, hfound⟩ := List.getElem?_of_mem hmem
    have honce := hbegun.destroys i q hfound
    rw [hundue] at honce
    exact congrArg (q.policy, ·) honce
  · refine hbegun.closes.resolve_left fun hasked => ?_
    rw [hundue] at hasked
    cases hasked
  · intro k i hactive
    have hasked := h.kept.route k i hactive
    rw [hundue] at hasked
    cases hasked
  · rw [Shutdown.pending, ← List.length_map Prod.snd]
    exact congrArg List.length hundue
  · cases hphase : w.orchestrator.launch with
    | notCalled => exact absurd hphase hlaunched
    | called => exact absurd hphase hunderWay
    | done => rfl
    | running =>
      rw [Site.advance, if_pos ⟨hphase, hspent, hreturned⟩] at hjoin
      cases hjoin

/-- A start that succeeded and a stop at any later moment, among anything else: where no task can
move, everything that was taken for the control has been released, and each processor destroyed
once. -/
theorem stop_releases {pre mid post : List Event}
    (hplayed : (Site.new name).play (pre ++ .start true :: (mid ++ .stop :: post)) = some w)
    (hsettled : w.Settled) : ∃ c, .register c true ∈ pre ∧ Released c w.orchestrator := by
  have hstaged := staged_of_play hplayed
  obtain ⟨ready, hbefore, hrest⟩ := Site.play_split hplayed
  obtain ⟨started, hstart, hrest⟩ := Option.bind_eq_some_iff.mp hrest
  obtain ⟨running, hmeanwhile, hrest⟩ := Site.play_split hrest
  obtain ⟨stopped, hstop, hrest⟩ := Option.bind_eq_some_iff.mp hrest
  have hlawful : Lawful running :=
    ((Lawful.new name).play hbefore |>.advance hstart).play hmeanwhile
  have htriggered : stopped.orchestrator.shutdown.triggered = true := by
    cases hstop
    exact stop_triggered _ hlawful.halted
  have hlaunched : w.orchestrator.launch ≠ .notCalled := by
    intro hidle
    have hnone := hstaged.starts
    rw [hidle, if_pos rfl] at hnone
    exact List.countP_eq_zero.mp hnone (.start true) (by simp) rfl
  have hlast : Lawful w := (hlawful.advance hstop).play hrest
  obtain ⟨c, hcontrol, hreleased⟩ := released_of_settled hlast hlaunched
    (triggered_of_play (hlawful.advance hstop) htriggered hrest) hsettled
  refine ⟨c, ?_, hreleased⟩
  -- The start needed a control, and no second one was accepted.
  obtain hfirst | hlater := List.mem_append.mp (hstaged.accepted c hcontrol)
  · exact hfirst
  · have hassigned : registrations pre = 1 := by
      cases (Site.advance_deed hstart).turn with
      | start hassigned =>
        rw [(staged_of_play hbefore).registrations,
          if_pos (Option.isSome_iff_ne_none.mpr hassigned)]
      | other hregisters hstarts => cases hstarts
    have hagain : 0 < registrations (.start true :: (mid ++ .stop :: post)) :=
      List.countP_pos_iff.mpr ⟨_, hlater, rfl⟩
    have hmost := hstaged.registrations
    rw [hcontrol, Option.isSome_some, if_pos rfl, registrations, List.countP_append,
      ← registrations, ← registrations, hassigned] at hmost
    omega

/-- A stop comes between the calls of two processors, and everything comes to rest. -/
def haltedLaunch : List Event :=
  [.register ⟨[.stall, .consume], none⟩ true] ++ .start true :: ([.launch, .call] ++ .stop ::
    (.call :: [.consumer 0, .consumer 0, .consumer 1, .consumer 1, .loop 0, .lane 0 0, .lane 0 1,
      .loop 0, .loop 1, .lane 1 0, .lane 1 1, .loop 1].map (.plant ∘ .step) ++ [.join]))

theorem stop_releases_amid_launch : ∃ w, (Site.new "live").play haltedLaunch = some w ∧ w.Settled ∧
    Released ⟨[.stall, .consume], none⟩ w.orchestrator := by
  obtain ⟨w, hplayed⟩ := Option.isSome_iff_exists.mp
    (by decide +kernel : ((Site.new "live").play haltedLaunch).isSome = true)
  have hsettled : ((Site.new "live").play haltedLaunch).all fun w => w.Settled := by decide +kernel
  rw [hplayed, Option.all_some, decide_eq_true_eq] at hsettled
  obtain ⟨c, hregistered, hreleased⟩ := stop_releases hplayed hsettled
  cases List.mem_singleton.mp hregistered
  exact ⟨w, hplayed, hsettled, hreleased⟩

end Headend.Orchestrator
