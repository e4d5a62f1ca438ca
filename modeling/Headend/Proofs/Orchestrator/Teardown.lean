import Headend.Orchestrator
import Headend.Proofs.Plant.Tether

/-!
# What an orchestrator owes

Whatever the orchestrator takes hold of, it registers a teardown task for. `Torn` is what a list of
teardown tasks does, and `Owes` how the tasks that are due change: each task that was due or is new
has run, or is due still. So it makes no difference to a resource whether its task was registered
before the trigger or came late and ran at once.
-/

namespace Headend.Orchestrator

open Media Plant Ingest Hls

variable {o o' o'' : Orchestrator} {t : Teardown} {ts ts' : List Teardown}

/-! ## Teardown tasks that run -/

/-- What no teardown task touches. -/
structure Alike (o o' : Orchestrator) : Prop where
  root : o'.root = o.root
  state : o'.state = o.state
  control : o'.control = o.control
  pipes : o'.pipes = o.pipes
  launch : o'.launch = o.launch

theorem Alike.refl (o : Orchestrator) : o.Alike o := ⟨rfl, rfl, rfl, rfl, rfl⟩

theorem Alike.trans (ha : o.Alike o') (ha' : o'.Alike o'') : o.Alike o'' where
  root := ha'.root.trans ha.root
  state := ha'.state.trans ha.state
  control := ha'.control.trans ha.control
  pipes := ha'.pipes.trans ha.pipes
  launch := ha'.launch.trans ha.launch

/-- These tasks ran. -/
structure Torn (ts : List Teardown) (o o' : Orchestrator) : Prop extends Alike o o' where
  plant : o.plant.Extends o'.plant
  processors : ∀ i : Nat, o'.processors[i]? = o.processors[i]?.map fun q =>
    { q with destroys := q.destroys + ts.count (.destroy i) }
  closed : ∀ pipes, .closePipes pipes ∈ ts → ∀ side, pipes.get side < o.plant.pipes.length →
    (o'.plant.pipes.get (pipes.get side)).closed = true
  router : ∀ k i, o'.router.active = some (k, .ofControl i) →
    o.router.active = some (k, .ofControl i) ∧ .unregister k ∉ ts

/-- Tasks that destroy no processor leave all as they are. -/
theorem spared (hspares : ∀ i, ts.count (.destroy i) = 0) (i : Nat) :
    o.processors[i]? = o.processors[i]?.map fun q =>
      { q with destroys := q.destroys + ts.count (.destroy i) } := by
  rw [hspares]
  cases o.processors[i]? <;> rfl

theorem Torn.nil (hplant : o.plant.Extends o'.plant) (halike : o.Alike o')
    (hprocessors : o'.processors = o.processors)
    (hrouter : ∀ k i, o'.router.active = some (k, .ofControl i) →
      o.router.active = some (k, .ofControl i)) :
    Torn [] o o' where
  toAlike := halike
  plant := hplant
  processors i := hprocessors ▸ spared (fun _ => List.count_nil) i
  closed _ hmem := absurd hmem List.not_mem_nil
  router k i hactive := ⟨hrouter k i hactive, List.not_mem_nil⟩

theorem Torn.append (h : Torn ts o o') (h' : Torn ts' o' o'') : Torn (ts ++ ts') o o'' where
  toAlike := h.toAlike.trans h'.toAlike
  plant := h.plant.trans h'.plant
  processors i := by
    rw [h'.processors, h.processors, Option.map_map, List.count_append]
    simp only [Function.comp_def, Nat.add_assoc]
  closed pipes hmem side hbound := by
    have hsize := h.plant.pipes.size
    obtain hmem | hmem := List.mem_append.mp hmem
    · exact h'.plant.pipes.closed _ (Nat.lt_of_lt_of_le hbound hsize)
        (h.closed pipes hmem side hbound)
    · exact h'.closed pipes hmem side (Nat.lt_of_lt_of_le hbound hsize)
  router k i hactive := by
    obtain ⟨hbefore, hunasked'⟩ := h'.router k i hactive
    obtain ⟨hfirst, hunasked⟩ := h.router k i hbefore
    exact ⟨hfirst, fun hmem => (List.mem_append.mp hmem).elim hunasked hunasked'⟩

theorem teardown_torn (o : Orchestrator) (t : Teardown) : Torn [t] o (o.teardown t) := by
  cases t with
  | closePipes pipes =>
    constructor
    case toAlike => exact ⟨rfl, rfl, rfl, rfl, rfl⟩
    case plant => exact (Carries.closePipes _ _).toExtends
    case processors => exact spared (o := o) fun _ => rfl
    case closed =>
      intro pipes' hmem side hbound
      cases List.mem_singleton.mp hmem
      exact closed_updatePipes_close _ _ side hbound
    case router => exact fun k x hactive => ⟨hactive, by simp⟩
  | destroy j =>
    constructor
    case toAlike => exact ⟨rfl, rfl, rfl, rfl, rfl⟩
    case plant => exact .refl _
    case processors =>
      intro i
      simp only [teardown, List.getElem?_modify, List.count_singleton]
      by_cases hsame : j = i
      · subst hsame
        cases o.processors[j]? <;> simp
      · cases o.processors[i]? <;> simp [hsame]
    case closed => exact fun pipes hmem => absurd hmem (by simp)
    case router => exact fun k x hactive => ⟨hactive, by simp⟩
  | unregister route =>
    constructor
    case toAlike => exact ⟨rfl, rfl, rfl, rfl, rfl⟩
    case plant => exact .refl _
    case processors => exact spared (o := o) fun _ => rfl
    case closed => exact fun pipes hmem => absurd hmem (by simp)
    case router =>
      intro k x hactive
      obtain ⟨hbefore, hother⟩ := Router.unregister_active.mp hactive
      exact ⟨hbefore, by simpa using hother⟩
  | other name =>
    constructor
    case toAlike => exact ⟨rfl, rfl, rfl, rfl, rfl⟩
    case plant => exact .refl _
    case processors => exact spared (o := o) fun _ => rfl
    case closed => exact fun pipes hmem => absurd hmem (by simp)
    case router => exact fun k x hactive => ⟨hactive, by simp⟩

theorem teardowns_torn (ts : List Teardown) (o : Orchestrator) :
    Torn ts o (ts.foldl teardown o) := by
  induction ts generalizing o with
  | nil => exact .nil (.refl _) (.refl o) rfl fun _ _ => id
  | cons t ts ih => exact (teardown_torn o t).append (ih _)

theorem teardowns_shutdown (ts : List Teardown) (o : Orchestrator) :
    (ts.foldl teardown o).shutdown = o.shutdown := by
  induction ts generalizing o with
  | nil => rfl
  | cons t ts ih =>
    rw [List.foldl_cons, ih]
    cases t <;> rfl

/-! ## Teardown tasks that are due -/

def due (o : Orchestrator) : List Teardown := o.shutdown.tasks.map Prod.snd

/-- The trigger has cancelled the root token and left nothing due. -/
def Fired (o : Orchestrator) : Prop :=
  o.shutdown.triggered = true → o.plant.tokens.fired o.root = true ∧ o.due = []

theorem Fired.carry (h : o.Fired) (hplant : o.plant.Grows o'.plant) (hroot : o'.root = o.root)
    (hshutdown : o'.shutdown = o.shutdown) : o'.Fired := by
  intro htriggered
  obtain ⟨hfired, hempty⟩ := h (hshutdown ▸ htriggered)
  exact ⟨hroot ▸ hplant.tokens.fired _ hfired, by rw [due, hshutdown]; exact hempty⟩

/-- Of the tasks that were due and the new ones, some ran and all others are due. -/
structure Owes (ts : List Teardown) (o o' : Orchestrator) : Prop where
  ran : ∃ ran, Torn ran o o' ∧ (o'.due ++ ran).Perm (o.due ++ ts)
  triggered : o.shutdown.triggered = true → o'.shutdown.triggered = true
  fired : o.root < o.plant.tokens.all.length → o.Fired → o'.Fired

theorem Owes.trans (h : Owes ts o o') (h' : Owes ts' o' o'') : Owes (ts ++ ts') o o'' := by
  obtain ⟨ran, htorn, hperm⟩ := h.ran
  obtain ⟨ran', htorn', hperm'⟩ := h'.ran
  refine ⟨⟨ran ++ ran', htorn.append htorn', ?_⟩, h'.triggered ∘ h.triggered, ?_⟩
  · refine List.perm_iff_count.mpr fun t => ?_
    have hfirst := hperm.count_eq t
    have hnext := hperm'.count_eq t
    simp only [List.count_append] at hfirst hnext ⊢
    omega
  · intro hroot hfired
    refine h'.fired ?_ (h.fired hroot hfired)
    rw [htorn.root]
    exact Nat.lt_of_lt_of_le hroot htorn.plant.tokens.size

/-- No task is new or runs. -/
theorem Owes.of_alike (hplant : o.plant.Extends o'.plant) (halike : o.Alike o')
    (hprocessors : o'.processors = o.processors)
    (hrouter : ∀ k i, o'.router.active = some (k, .ofControl i) →
      o.router.active = some (k, .ofControl i))
    (hshutdown : o'.shutdown = o.shutdown) : Owes [] o o' where
  ran := by
    refine ⟨[], .nil hplant halike hprocessors hrouter, ?_⟩
    rw [due, hshutdown]
    exact .refl _
  triggered h := hshutdown ▸ h
  fired _ h := h.carry hplant.toGrows halike.root hshutdown

theorem Owes.refl (o : Orchestrator) : Owes [] o o :=
  .of_alike (.refl _) (.refl o) rfl (fun _ _ => id) rfl

theorem addTask_owes (o : Orchestrator) (t : Teardown) : Owes [t] o (o.addTask t) := by
  cases htriggered : o.shutdown.triggered with
  | true =>
    let counted := { o with shutdown := { o.shutdown with nextId := o.shutdown.nextId + 1 } }
    have hnow : o.addTask t = [t].foldl teardown counted := by
      rw [addTask, Shutdown.add_of_triggered htriggered]
      rfl
    have hshutdown : (o.addTask t).shutdown = counted.shutdown := by rw [hnow, teardowns_shutdown]
    have hsame : Torn [] o counted :=
      .nil (.refl _) ⟨rfl, rfl, rfl, rfl, rfl⟩ rfl fun _ _ => id
    have htorn : Torn [t] o (o.addTask t) := hsame.append (hnow ▸ teardowns_torn [t] counted)
    constructor
    case ran =>
      refine ⟨[t], htorn, ?_⟩
      rw [due, hshutdown]
      exact .refl _
    case triggered =>
      intro _
      rw [hshutdown]
      exact htriggered
    case fired =>
      intro _ h _
      obtain ⟨hfired, hempty⟩ := h htriggered
      rw [due, hshutdown, htorn.root]
      exact ⟨htorn.plant.tokens.fired _ hfired, hempty⟩
  | false =>
    have hlater : o.addTask t = { o with shutdown := { o.shutdown with
        tasks := o.shutdown.tasks ++ [(o.shutdown.nextId, t)]
        nextId := o.shutdown.nextId + 1 } } := by
      rw [addTask, Shutdown.add_of_untriggered htriggered]
      rfl
    rw [hlater]
    constructor
    case ran =>
      refine ⟨[], .nil (.refl _) ⟨rfl, rfl, rfl, rfl, rfl⟩ rfl fun _ _ => id, ?_⟩
      simp [due]
    case triggered => exact fun h => absurd h (by simp [htriggered])
    case fired => exact fun _ _ h => absurd (htriggered.symm.trans h) Bool.false_ne_true

theorem addTasks_owes {β : Type} (f : β → Teardown) (l : List β) (o : Orchestrator) :
    Owes (l.map f) o (l.foldl (fun o b => o.addTask (f b)) o) := by
  induction l generalizing o with
  | nil => exact .refl o
  | cons b l ih => exact (o.addTask_owes (f b)).trans (ih _)

theorem trigger_owes (o : Orchestrator) :
    Owes [] o o.trigger ∧ o.trigger.shutdown.triggered = true := by
  cases htriggered : o.shutdown.triggered with
  | true =>
    have hsame : o.trigger = o := if_pos htriggered
    rw [hsame]
    exact ⟨.refl o, htriggered⟩
  | false =>
    let fired := { o with
      shutdown := { o.shutdown with tasks := [], triggered := true }
      plant := o.plant.cancel o.root }
    have htorn : o.trigger = o.due.reverse.foldl teardown fired := by
      rw [trigger, if_neg (by simp [htriggered]), Shutdown.trigger_of_untriggered htriggered]
      rfl
    have hshutdown : o.trigger.shutdown = fired.shutdown := by rw [htorn, teardowns_shutdown]
    have hcancelled : Torn [] o fired :=
      .nil (Carries.cancel _ _).toExtends ⟨rfl, rfl, rfl, rfl, rfl⟩ rfl fun _ _ => id
    have hran : Torn o.due.reverse fired o.trigger := htorn ▸ teardowns_torn _ _
    refine ⟨⟨⟨_, hcancelled.append hran, ?_⟩, ?_, ?_⟩, hshutdown ▸ rfl⟩
    · rw [due, hshutdown, List.append_nil]
      exact List.reverse_perm o.due
    · exact fun _ => hshutdown ▸ rfl
    · intro hroot _ _
      rw [due, hshutdown, hran.root]
      exact ⟨hran.plant.tokens.fired _ (Tokens.fired_cancel_self hroot), rfl⟩

/-! ### What that means for a resource -/

section

variable {i k : Nat} {q : Ingest.Processor} {pipes : Sides Nat}

theorem Owes.alike (h : Owes ts o o') : o.Alike o' := by
  obtain ⟨ran, htorn, -⟩ := h.ran
  exact htorn.toAlike

theorem Owes.plant (h : Owes ts o o') : o.plant.Extends o'.plant := by
  obtain ⟨ran, htorn, -⟩ := h.ran
  exact htorn.plant

theorem Owes.policies (h : Owes ts o o') :
    o'.processors.map Processor.policy = o.processors.map Processor.policy := by
  obtain ⟨ran, htorn, -⟩ := h.ran
  apply List.ext_getElem?
  intro i
  rw [List.getElem?_map, List.getElem?_map, htorn.processors, Option.map_map]
  rfl

/-- A processor gets its destroys. -/
theorem Owes.processor (h : Owes ts o o') (hfound : o'.processors[i]? = some q) :
    ∃ p, o.processors[i]? = some p ∧ q.policy = p.policy ∧ q.consumer = p.consumer ∧
      q.destroys + o'.due.count (.destroy i)
        = p.destroys + o.due.count (.destroy i) + ts.count (.destroy i) := by
  obtain ⟨ran, htorn, hperm⟩ := h.ran
  have hi := htorn.processors i
  rw [hfound] at hi
  obtain ⟨p, hbefore, rfl⟩ := Option.map_eq_some_iff.mp hi.symm
  refine ⟨p, hbefore, rfl, rfl, ?_⟩
  have hcounts := hperm.count_eq (.destroy i)
  simp only [List.count_append] at hcounts
  change p.destroys + _ + _ = _
  omega

theorem Owes.closed (h : Owes ts o o') (hasked : .closePipes pipes ∈ o.due ++ ts)
    (hbound : ∀ side, pipes.get side < o.plant.pipes.length) :
    .closePipes pipes ∈ o'.due ∨ ∀ side, (o'.plant.pipes.get (pipes.get side)).closed = true := by
  obtain ⟨ran, htorn, hperm⟩ := h.ran
  obtain hstill | hdone := List.mem_append.mp (hperm.symm.subset hasked)
  · exact .inl hstill
  · exact .inr fun side => htorn.closed pipes hdone side (hbound side)

theorem Owes.route (h : Owes ts o o') (hactive : o'.router.active = some (k, .ofControl i)) :
    o.router.active = some (k, .ofControl i) ∧
      (.unregister k ∈ o.due ++ ts → .unregister k ∈ o'.due) := by
  obtain ⟨ran, htorn, hperm⟩ := h.ran
  obtain ⟨hbefore, hunasked⟩ := htorn.router k i hactive
  exact ⟨hbefore, fun hasked =>
    (List.mem_append.mp (hperm.symm.subset hasked)).resolve_right hunasked⟩

end

/-! ## Registering and starting -/

theorem register_eq_ok {c : Control} (h : o.register c = .ok o') : o.control = none ∧ o' = { o with
    control := some c
    state := .controlRegistered
    processors := c.processors.map fun policy => ⟨policy, none, 0⟩ } := by
  rw [register] at h
  split at h
  · cases h
  case isFalse hfree =>
    cases h
    exact ⟨Option.not_isSome_iff_eq_none.mp hfree, rfl⟩

/-- The pipes that a start makes. -/
def nextPipes (o : Orchestrator) : Sides Nat :=
  ⟨(o.plant.addPipe Pipe.defaultCapacity).2,
    ((o.plant.addPipe Pipe.defaultCapacity).1.addPipe Pipe.defaultCapacity).2⟩

/-- The pipes are made for the control, and no teardown is registered yet. -/
def readied (o : Orchestrator) (c : Control) : Orchestrator := { o with
  plant := ((o.plant.addPipe Pipe.defaultCapacity).1.addPipe Pipe.defaultCapacity).1
  state := .running
  tracks := some (localTracks o.name)
  pipes := some o.nextPipes
  feeding := c.refusal.isNone
  launch := .called }

/-- What a start registers for teardown. -/
def pledges (o : Orchestrator) (c : Control) : List Teardown :=
  .closePipes o.nextPipes :: (List.range c.processors.length).map .destroy

theorem start_eq_ok (h : o.start = .ok o') : ∃ c, o.control = some c ∧
    o.state = .controlRegistered ∧ Owes (o.pledges c) (o.readied c) o' := by
  rw [start] at h
  split at h
  · cases h
  case h_2 c hassigned =>
    split at h
    · cases h
    case isFalse hregistered =>
      refine ⟨c, hassigned, by simpa using hregistered, ?_⟩
      let closing := (o.readied c).addTask (.closePipes o.nextPipes)
      let fed := { closing with plant := if c.refusal.isSome
        then closing.plant.updatePipes o.nextPipes Pipe.dropWriter else closing.plant }
      have hdropped : Owes [] closing fed := by
        refine .of_alike ?_ ⟨rfl, rfl, rfl, rfl, rfl⟩ rfl (fun _ _ => id) rfl
        change closing.plant.Extends (if _ then _ else _)
        split
        · exact (Carries.dropWriters _ _).toExtends
        · exact .refl _
      cases h
      exact (((o.readied c).addTask_owes _).trans hdropped).trans (addTasks_owes .destroy _ fed)

/-- A processor is called: its route is registered first, with the task that removes it. -/
theorem startProcessor_eq {i : Nat} {q : Ingest.Processor} (hfound : o.processors[i]? = some q)
    (pipes : Sides Nat) : ∃ routed, Owes [.unregister o.router.nextId]
        { o with router := (o.router.register (.ofControl i)).1 } routed ∧
      o.startProcessor i pipes = { routed with
        plant := (routed.plant.addConsumer (.new q.policy routed.root false pipes)).1
        processors := routed.processors.modify i fun q =>
          { q with consumer := some routed.plant.consumers.length } } := by
  refine ⟨_, addTask_owes _ _, ?_⟩
  rw [startProcessor, hfound]
  rfl

theorem startProcessor_alike (o : Orchestrator) (i : Nat) (pipes : Sides Nat) :
    o.Alike (o.startProcessor i pipes) := by
  cases hfound : o.processors[i]? with
  | none =>
    rw [startProcessor, hfound]
    exact .refl o
  | some q =>
    obtain ⟨routed, howes, heq⟩ := startProcessor_eq hfound pipes
    obtain ⟨hroot, hstate, hcontrol, hpipes, hlaunch⟩ := howes.alike
    rw [heq]
    exact ⟨hroot, hstate, hcontrol, hpipes, hlaunch⟩

/-! ## Feeding -/

theorem feed_owes (o : Orchestrator) (side : Side) (chunk : Bytes) :
    Owes [] o (o.feed side chunk).1 := by
  rw [feed]
  split
  · exact .refl o
  case h_2 pipes hown =>
    refine .of_alike ?_ ⟨rfl, rfl, rfl, rfl, rfl⟩ rfl (fun _ _ => id) rfl
    change o.plant.Extends (o.plant.offer (pipes.get side) chunk).1
    rw [Plant.offer]
    split
    case h_1 haccepted =>
      exact (Carries.usePipes (.set (Pipe.closed_of_accepted haccepted))).toExtends
    case h_2 => exact .refl _

theorem dropPipes_owes (o : Orchestrator) : Owes [] o o.dropPipes.1 := by
  rw [dropPipes]
  split
  · exact .refl o
  · exact .of_alike (Carries.dropWriters _ _).toExtends ⟨rfl, rfl, rfl, rfl, rfl⟩ rfl
      (fun _ _ => id) rfl

end Headend.Orchestrator
