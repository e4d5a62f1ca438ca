import Headend.Proofs.Shutdown.Work

/-!
# An orderly teardown

What everybody may rely on who adds, removes and triggers, whatever the tasks themselves do with the
registry while they run: `Orderly`, of any history in which all calls have returned.
-/

namespace Headend.Shutdown

variable {β : Type}

structure Orderly (es : List (Event β)) : Prop where
  numbered : (addedIds es).Nodup
  idle : wasTriggered es = false → ranIds es = []
  once : wasTriggered es = true →
    ∀ id ∈ addedIds es, (ranIds es).count id = if id ∈ removedIds es then 0 else 1
  /-- What begins was added before, and finds the token cancelled. -/
  began : ∀ pre id task cancelled post, es = pre ++ .began id task cancelled :: post →
    .added id task ∈ pre ∧ cancelled = true
  /-- The first trigger runs what is pending, the newest first. -/
  newestFirst : ∀ pre post, es = pre ++ .triggered :: post → wasTriggered pre = false →
    (ranIds post).filter (· ∈ addedIds pre) = (pendingIds pre).reverse
  /-- After the trigger, adding a task runs it before anything else happens. -/
  atOnce : ∀ pre id task post, es = pre ++ .added id task :: post → wasTriggered pre = true →
    ∃ inside rest, post = .began id task true :: (inside ++ .ended id :: .returned :: rest)
  later : ∀ pre post, es = pre ++ .triggered :: post → wasTriggered pre = true →
    ∃ rest, post = .returned :: rest
  removal : ∀ pre id found post, es = pre ++ .removed id found :: post →
    (found = true ↔ id ∈ pendingIds pre)

section

variable {w w' : Work β} {e : Event β} {es : List (Event β)} {calls outer : List (Open β)}
  {rest : List (Nat × β)} {id : Nat}

/-! ## Calls return in the order of a stack -/

theorem Work.not_free (htop : w.calls = ⟨none, rest⟩ :: calls) : ¬w.Free := by
  intro hfree
  have hrunning := hfree ⟨none, rest⟩ (by rw [htop]; exact rfl)
  cases hrunning

/-- A call with nothing to run can only return. -/
theorem Step.of_spent (hstep : Step w e w') (htop : w.calls = ⟨none, []⟩ :: calls) :
    e = .returned ∧ w' = { w with calls := calls } := by
  cases hstep with
  | add task hfree | remove id hfree | trigger hfree | cancel hfree =>
    exact absurd hfree (Work.not_free htop)
  | begin hother | finish hother => cases htop.symm.trans hother
  | leave hother =>
    cases htop.symm.trans hother
    exact ⟨rfl, rfl⟩

/-- A call with a task to run can only begin it. -/
theorem Step.of_due {t : Nat × β} (hstep : Step w e w')
    (htop : w.calls = ⟨none, t :: rest⟩ :: calls) :
    e = .began t.1 t.2 w.cancelled ∧ w' = { w with calls := ⟨some t.1, rest⟩ :: calls } := by
  cases hstep with
  | add task hfree | remove id hfree | trigger hfree | cancel hfree =>
    exact absurd hfree (Work.not_free htop)
  | finish hother | leave hother => cases htop.symm.trans hother
  | begin hother =>
    cases htop.symm.trans hother
    exact ⟨rfl, rfl⟩

/-- A task that runs has ended by the time all calls have returned, and its call then goes on. The
induction carries the calls made since. -/
theorem Run.ends (hrun : Run w es w') (hreturned : w'.calls = []) (inner : List (Open β))
    (htop : w.calls = inner ++ ⟨some id, rest⟩ :: outer) : ∃ inside after w₁,
      es = inside ++ .ended id :: after ∧ Run w₁ after w' ∧ w₁.calls = ⟨none, rest⟩ :: outer := by
  induction hrun generalizing inner with
  | stay => cases inner <;> cases htop.symm.trans hreturned
  | @step w w₂ w' e es hfirst hrun ih =>
    -- Only the finish of the task itself changes its frame; all else goes on above it.
    have habove (inner' : List (Open β)) (htop' : w₂.calls = inner' ++ ⟨some id, rest⟩ :: outer) :
        ∃ inside after w₁, e :: es = inside ++ .ended id :: after ∧ Run w₁ after w' ∧
          w₁.calls = ⟨none, rest⟩ :: outer := by
      obtain ⟨inside, after, w₁, rfl, hrun₁, htop₁⟩ := ih hreturned inner' htop'
      exact ⟨e :: inside, after, w₁, rfl, hrun₁, htop₁⟩
    cases hfirst with
    | add task hfree | trigger hfree => exact habove (⟨none, _⟩ :: inner) (congrArg _ htop)
    | remove id hfree | cancel hfree => exact habove inner htop
    | begin hother =>
      cases inner with
      | nil => cases htop.symm.trans hother
      | cons call inner =>
        cases htop.symm.trans hother
        exact habove (⟨some _, _⟩ :: inner) rfl
    | finish hother =>
      cases inner with
      | nil =>
        cases htop.symm.trans hother
        exact ⟨[], es, _, rfl, hrun, rfl⟩
      | cons call inner =>
        cases htop.symm.trans hother
        exact habove (⟨none, _⟩ :: inner) rfl
    | leave hother =>
      cases inner with
      | nil => cases htop.symm.trans hother
      | cons call inner =>
        cases htop.symm.trans hother
        exact habove inner rfl

/-! ## What waits runs in the order in which it waits -/

variable {ids : List Nat}

theorem Step.keeps_triggered (hstep : Step w e w') (htriggered : w.registry.triggered = true) :
    w'.registry.triggered = true := by
  cases hstep with
  | add task hfree => exact (triggered_add _ _).trans htriggered
  | trigger hfree => exact triggered_trigger _
  | remove id hfree | cancel hfree | begin htop | finish htop | leave htop => exact htriggered

theorem Step.nextId_le (hstep : Step w e w') : w.registry.nextId ≤ w'.registry.nextId := by
  cases hstep with
  | add task hfree =>
    rw [Work.enter, nextId_add]
    exact Nat.le_succ _
  | trigger hfree =>
    simp only [Work.enter, Shutdown.trigger]
    split <;> exact Nat.le_refl _
  | remove id hfree | cancel hfree | begin htop | finish htop | leave htop => exact Nat.le_refl _

/-- Of tasks that were all added before, a step begins the one that is due or none. -/
theorem Step.order (hstep : Step w e w') (htriggered : w.registry.triggered = true)
    (hold : ∀ id ∈ ids, id < w.registry.nextId) :
    (ranIds [e] ++ w'.queue.map Prod.fst).filter (· ∈ ids)
      = (w.queue.map Prod.fst).filter (· ∈ ids) := by
  cases hstep with
  | add task hfree =>
    have hfresh : w.registry.nextId ∉ ids := fun hmem => Nat.lt_irrefl _ (hold _ hmem)
    rw [add_of_triggered htriggered]
    change List.filter _ (w.registry.nextId :: w.queue.map Prod.fst) = _
    rw [List.filter_cons_of_neg (by simpa using hfresh)]
  | trigger hfree =>
    rw [trigger_of_triggered htriggered]
    rfl
  | remove id hfree | cancel hfree => rfl
  | begin htop | finish htop | leave htop => simp [ranIds, Work.queue, htop]

theorem Run.order (hrun : Run w es w') (htriggered : w.registry.triggered = true)
    (hold : ∀ id ∈ ids, id < w.registry.nextId) :
    (ranIds es ++ w'.queue.map Prod.fst).filter (· ∈ ids)
      = (w.queue.map Prod.fst).filter (· ∈ ids) := by
  induction hrun with
  | stay => rfl
  | @step w w₁ w' e es hfirst hrun ih =>
    have hnow := hfirst.order htriggered hold
    have hnext := ih (hfirst.keeps_triggered htriggered)
      fun id hmem => Nat.lt_of_lt_of_le (hold id hmem) hfirst.nextId_le
    rw [List.filter_append] at hnow hnext
    rw [← List.singleton_append, ranIds_append, List.append_assoc, List.filter_append,
      List.filter_append, hnext, hnow]

end

/-! ## Every history is orderly -/

section

variable {w w' : Work β} {es : List (Event β)} {id : Nat}

namespace Tracked

/-- Once all calls have returned, nothing is left to run. -/
theorem queue_nil (hreturned : w.calls = []) : w.queue = [] := by rw [Work.queue, hreturned]; rfl

theorem once (h : Tracked es w) (hreturned : w.calls = []) (htriggered : wasTriggered es = true)
    (hadded : id ∈ addedIds es) : (ranIds es).count id = if id ∈ removedIds es then 0 else 1 := by
  have hplaces := h.places
  rw [queue_nil hreturned, pendingIds_of_triggered htriggered, List.map_nil, List.append_nil,
    List.append_nil] at hplaces
  have hone : (addedIds es).count id = 1 := by
    rw [h.numbers] at hadded ⊢
    exact List.nodup_range.count.trans (if_pos hadded)
  have hcounts := hplaces.count_eq id
  rw [List.count_append, hone] at hcounts
  split
  · have := List.count_pos_iff.mpr ‹id ∈ removedIds es›
    omega
  · have := List.count_eq_zero.mpr ‹id ∉ removedIds es›
    omega

end Tracked

theorem Run.orderly (hrun : Run .new es w) (hreturned : w.calls = []) : Orderly es := by
  have h : Tracked es w := Tracked.new.run hrun
  -- The state in which an event finds the registry, and the run from there on.
  have hevent : ∀ {pre e post}, es = pre ++ e :: post →
      ∃ before after, Tracked pre before ∧ Step before e after ∧ Run after post w := by
    rintro pre e post rfl
    obtain ⟨before, hfirst, hlast⟩ := hrun.split
    cases hlast with
    | step hstep hrest => exact ⟨before, _, Tracked.new.run hfirst, hstep, hrest⟩
  constructor
  case numbered => rw [h.numbers]; exact List.nodup_range
  case idle => exact fun huntriggered => (h.idle huntriggered).1
  case once => exact fun htriggered id hadded => h.once hreturned htriggered hadded
  case began =>
    intro pre id task c post hsplit
    obtain ⟨before, after, htracked, hstep, -⟩ := hevent hsplit
    cases hstep with
    | begin htop =>
      obtain ⟨hadded, htriggered⟩ := htracked.due htop
      exact ⟨hadded, htracked.cancelled htriggered⟩
  case removal =>
    intro pre id found post hsplit
    obtain ⟨before, after, htracked, hstep, -⟩ := hevent hsplit
    cases hstep with
    | remove id hfree => exact htracked.found_iff
  case later =>
    intro pre post hsplit htriggered
    obtain ⟨before, after, htracked, hstep, hrest⟩ := hevent hsplit
    cases hstep with
    | trigger hfree =>
      rw [trigger_of_triggered (htracked.triggered.trans htriggered)] at hrest
      cases hrest with
      | stay => cases hreturned
      | step hfirst hrest =>
        obtain ⟨rfl, -⟩ := hfirst.of_spent rfl
        exact ⟨_, rfl⟩
  case atOnce =>
    intro pre id task post hsplit htriggered
    obtain ⟨before, after, htracked, hstep, hrest⟩ := hevent hsplit
    cases hstep with
    | add task hfree =>
      rw [add_of_triggered (htracked.triggered.trans htriggered)] at hrest
      -- It begins, it ends, and its call has nothing else to run.
      cases hrest with
      | stay => cases hreturned
      | step hfirst hrest =>
        obtain ⟨rfl, rfl⟩ := hfirst.of_due rfl
        obtain ⟨inside, after, w₁, rfl, hrest, htop⟩ := hrest.ends hreturned [] rfl
        cases hrest with
        | stay => cases htop.symm.trans hreturned
        | step hlast hrest =>
          obtain ⟨rfl, -⟩ := hlast.of_spent htop
          have hcancelled : before.cancelled = true := htracked.cancelled htriggered
          exact ⟨inside, _, by rw [← hcancelled]; rfl⟩
  case newestFirst =>
    intro pre post hsplit huntriggered
    obtain ⟨before, after, htracked, hstep, hrest⟩ := hevent hsplit
    have hfired := htracked.step hstep
    cases hstep with
    | trigger hfree =>
      have hfirst : before.registry.triggered = false := htracked.triggered.trans huntriggered
      have hknown : ∀ id ∈ addedIds pre, id < (before.enter before.registry.trigger.1
          before.registry.trigger.2).registry.nextId := by
        intro id hmem
        rw [htracked.numbers, List.mem_range] at hmem
        rwa [Work.enter, trigger_of_untriggered hfirst]
      have horder := hrest.order (triggered_trigger before.registry) hknown
      rw [Tracked.queue_nil hreturned, List.map_nil, List.append_nil] at horder
      have hdue : (Work.queue
          { before.enter before.registry.trigger.1 before.registry.trigger.2 with
            cancelled := before.cancelled || !before.registry.triggered }).map Prod.fst
          = (pendingIds pre).reverse := by
        change ((before.registry.trigger.2 ++ before.queue).map Prod.fst) = _
        rw [(htracked.idle huntriggered).2, List.append_nil, trigger_of_untriggered hfirst,
          ← htracked.pending, ← List.map_reverse, ← List.map_reverse, List.map_map]
        exact List.map_congr_left fun t hmem => (htracked.listed t (List.mem_reverse.mp hmem)).1
      rw [horder, hdue, List.filter_eq_self.mpr]
      intro id hmem
      rw [pendingIds_of_untriggered huntriggered, List.mem_reverse] at hmem
      simpa using (List.mem_filter.mp hmem).1

end

end Headend.Shutdown
