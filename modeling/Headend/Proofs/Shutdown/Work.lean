import Headend.Shutdown

/-!
# Code at work with a registry

Tasks are code like any other: while one runs it may add, remove and trigger itself, nested to any
depth. `Work` is a registry with the calls that have not returned, `Step` says what can come next,
and nothing is assumed about the code but that it makes one call after the other. An `Event` is what
an observer sees. A task goes under the number it gets, so that its run can be told from others.
-/

namespace Headend.Shutdown

variable {β : Type}

inductive Event (β : Type) where
  | added (id : Nat) (task : β)
  | removed (id : Nat) (found : Bool)
  | triggered
  /-- The token was cancelled by hand. -/
  | cancelled
  /-- A task began, and found the token cancelled or not. -/
  | began (id : Nat) (task : β) (cancelled : Bool)
  | ended (id : Nat)
  /-- A call that adds or triggers returned. -/
  | returned

/-! ## What an observer sees -/

def addedIds (es : List (Event β)) : List Nat :=
  es.filterMap fun
    | .added id _ => some id
    | _ => none

/-- The tasks that were found when they were to be removed. -/
def removedIds (es : List (Event β)) : List Nat :=
  es.filterMap fun
    | .removed id true => some id
    | _ => none

def ranIds (es : List (Event β)) : List Nat :=
  es.filterMap fun
    | .began id _ _ => some id
    | _ => none

def wasTriggered (es : List (Event β)) : Bool :=
  es.any fun
    | .triggered => true
    | _ => false

/-- Added and not removed, the oldest first. Nothing is pending from the trigger on. -/
def pendingIds (es : List (Event β)) : List Nat :=
  if wasTriggered es then [] else (addedIds es).filter fun id => id ∉ removedIds es

section

variable (es es' : List (Event β))

@[simp] theorem addedIds_append : addedIds (es ++ es') = addedIds es ++ addedIds es' :=
  List.filterMap_append

@[simp] theorem removedIds_append : removedIds (es ++ es') = removedIds es ++ removedIds es' :=
  List.filterMap_append

@[simp] theorem ranIds_append : ranIds (es ++ es') = ranIds es ++ ranIds es' :=
  List.filterMap_append

@[simp] theorem wasTriggered_append :
    wasTriggered (es ++ es') = (wasTriggered es || wasTriggered es') := List.any_append

theorem pendingIds_of_triggered {es : List (Event β)} (h : wasTriggered es = true) :
    pendingIds es = [] := if_pos h

theorem pendingIds_of_untriggered {es : List (Event β)} (h : wasTriggered es = false) :
    pendingIds es = (addedIds es).filter fun id => id ∉ removedIds es :=
  if_neg (Bool.eq_false_iff.mp h)

theorem pendingIds_added {es : List (Event β)} {id : Nat} (task : β) (hfresh : id ∉ removedIds es) :
    pendingIds (es ++ [.added id task])
      = pendingIds es ++ if wasTriggered es then [] else [id] := by
  have hseen : wasTriggered (es ++ [.added id task]) = wasTriggered es := by simp [wasTriggered]
  have hremoved : removedIds (es ++ [.added id task]) = removedIds es := by simp [removedIds]
  have hadded : addedIds (es ++ [.added id task]) = addedIds es ++ [id] := by simp [addedIds]
  cases htriggered : wasTriggered es with
  | true => simp [pendingIds, hseen, htriggered]
  | false =>
    rw [pendingIds_of_untriggered (hseen.trans htriggered), pendingIds_of_untriggered htriggered,
      hremoved, hadded, List.filter_append]
    simp [hfresh]

theorem pendingIds_removed {es : List (Event β)} {id : Nat} {found : Bool}
    (hanswer : found = true ↔ id ∈ pendingIds es) :
    pendingIds (es ++ [.removed id found]) = (pendingIds es).filter fun other => other != id := by
  have hseen : wasTriggered (es ++ [.removed id found]) = wasTriggered es := by simp [wasTriggered]
  have hadded : addedIds (es ++ [.removed id found]) = addedIds es := by simp [addedIds]
  cases htriggered : wasTriggered es with
  | true => simp [pendingIds, hseen, htriggered]
  | false =>
    have hpending := pendingIds_of_untriggered htriggered
    rw [pendingIds_of_untriggered (hseen.trans htriggered), hadded]
    cases found with
    | true =>
      have hremoved : removedIds (es ++ [.removed id true]) = removedIds es ++ [id] := by
        simp [removedIds]
      rw [hpending, List.filter_filter, hremoved]
      apply List.filter_congr
      intro other _
      exact Bool.eq_iff_iff.mpr (by simp [and_comm])
    | false =>
      -- What was not pending is not missed.
      have hremoved : removedIds (es ++ [.removed id false]) = removedIds es := by simp [removedIds]
      have habsent : id ∉ pendingIds es := fun hmem => Bool.false_ne_true (hanswer.mpr hmem)
      rw [hremoved, ← hpending, List.filter_eq_self.mpr]
      intro other hmem
      exact bne_iff_ne.mpr fun hsame => habsent (hsame ▸ hmem)

end

/-! ## Steps -/

/-- A call that has not returned: the task it is running, and those it has yet to run. -/
structure Open (β : Type) where
  running : Option Nat
  rest : List (Nat × β)

structure Work (β : Type) where
  registry : Shutdown (Nat × β)
  /-- Whether the token is cancelled. -/
  cancelled : Bool
  /-- The innermost call comes first. -/
  calls : List (Open β)

namespace Work

def new : Work β := ⟨.new, false, []⟩

/-- It is some code's turn: no call is open, or the innermost one is running a task. -/
def Free (w : Work β) : Prop := ∀ c ∈ w.calls.head?, c.running.isSome = true

/-- What was handed out and has yet to run, in the order in which it will. -/
def queue (w : Work β) : List (Nat × β) := w.calls.flatMap Open.rest

/-- A call has got its answer from the registry, and has these tasks to run before it returns. -/
def enter (w : Work β) (registry : Shutdown (Nat × β)) (tasks : List (Nat × β)) : Work β :=
  { w with registry := registry, calls := ⟨none, tasks⟩ :: w.calls }

end Work

inductive Step (w : Work β) : Event β → Work β → Prop where
  | add (task : β) (hfree : w.Free) : Step w (.added w.registry.nextId task)
      (w.enter (w.registry.add (w.registry.nextId, task)).1
        (w.registry.add (w.registry.nextId, task)).2.2.toList)
  | remove (id : Nat) (hfree : w.Free) : Step w (.removed id (w.registry.remove id).2)
      { w with registry := (w.registry.remove id).1 }
  | trigger (hfree : w.Free) : Step w .triggered
      { w.enter w.registry.trigger.1 w.registry.trigger.2 with
        cancelled := w.cancelled || !w.registry.triggered }
  | cancel (hfree : w.Free) : Step w .cancelled { w with cancelled := true }
  | begin {t : Nat × β} {rest : List (Nat × β)} {calls : List (Open β)}
      (htop : w.calls = ⟨none, t :: rest⟩ :: calls) :
      Step w (.began t.1 t.2 w.cancelled) { w with calls := ⟨some t.1, rest⟩ :: calls }
  | finish {id : Nat} {rest : List (Nat × β)} {calls : List (Open β)}
      (htop : w.calls = ⟨some id, rest⟩ :: calls) :
      Step w (.ended id) { w with calls := ⟨none, rest⟩ :: calls }
  | leave {calls : List (Open β)} (htop : w.calls = ⟨none, []⟩ :: calls) :
      Step w .returned { w with calls := calls }

inductive Run : Work β → List (Event β) → Work β → Prop where
  | stay (w : Work β) : Run w [] w
  | step {w w' w'' : Work β} {e : Event β} {es : List (Event β)} (hfirst : Step w e w')
      (hrest : Run w' es w'') : Run w (e :: es) w''

section

variable {w w' w'' : Work β} {e : Event β} {es es' : List (Event β)}

theorem Run.single (hstep : Step w e w') : Run w [e] w' := .step hstep (.stay _)

theorem Run.append (hrun : Run w es w') (hrun' : Run w' es' w'') : Run w (es ++ es') w'' := by
  induction hrun with
  | stay => exact hrun'
  | step hfirst hrest ih => exact .step hfirst (ih hrun')

theorem Run.split (hrun : Run w (es ++ es') w'') : ∃ w', Run w es w' ∧ Run w' es' w'' := by
  induction es generalizing w with
  | nil => exact ⟨w, .stay w, hrun⟩
  | cons e es ih =>
    cases hrun with
    | step hfirst hrest =>
      obtain ⟨w', hbefore, hafter⟩ := ih hrest
      exact ⟨w', .step hfirst hbefore, hafter⟩

end

/-! ## Where every task is -/

/-- What holds of a registry that was new before the events. Every task that was added is in one
place: it ran, it is about to run, it is pending, or it was removed. -/
structure Tracked (es : List (Event β)) (w : Work β) : Prop where
  triggered : w.registry.triggered = wasTriggered es
  numbers : addedIds es = List.range w.registry.nextId
  pending : w.registry.tasks.map Prod.fst = pendingIds es
  places : (ranIds es ++ w.queue.map Prod.fst ++ pendingIds es ++ removedIds es).Perm (addedIds es)
  idle : wasTriggered es = false → ranIds es = [] ∧ w.queue = []
  cancelled : wasTriggered es = true → w.cancelled = true
  listed : ∀ t ∈ w.registry.tasks, t.2.1 = t.1 ∧ .added t.1 t.2.2 ∈ es
  queued : ∀ t ∈ w.queue, .added t.1 t.2 ∈ es

namespace Tracked

variable {w w' : Work β} {e : Event β} {es es' : List (Event β)} {task : β} {id : Nat}

theorem new : Tracked ([] : List (Event β)) Work.new where
  triggered := rfl
  numbers := rfl
  pending := rfl
  places := .nil
  idle _ := ⟨rfl, rfl⟩
  cancelled := nofun
  listed := nofun
  queued := nofun

/-- The next number was never handed out, so nothing was removed under it. -/
theorem fresh (h : Tracked es w) : w.registry.nextId ∉ removedIds es := by
  intro hmem
  have hamong := h.places.subset (List.mem_append_right _ hmem)
  rw [h.numbers, List.mem_range] at hamong
  exact Nat.lt_irrefl _ hamong

theorem nodup (h : Tracked es w) :
    (ranIds es ++ w.queue.map Prod.fst ++ pendingIds es ++ removedIds es).Nodup := by
  rw [h.places.nodup_iff, h.numbers]
  exact List.nodup_range

theorem found_iff (h : Tracked es w) : (w.registry.remove id).2 = true ↔ id ∈ pendingIds es := by
  simp [remove, ← h.pending]

/-- An event that concerns no task, and leaves the registry and what is to run alone. -/
theorem quiet (h : Tracked es w) (hadded : addedIds [e] = []) (hremoved : removedIds [e] = [])
    (hran : ranIds [e] = []) (huntriggered : wasTriggered [e] = false)
    (hregistry : w'.registry = w.registry) (hqueue : w'.queue = w.queue)
    (hcancelled : w.cancelled = true → w'.cancelled = true) :
    Tracked (es ++ [e]) w' := by
  have hseen : wasTriggered (es ++ [e]) = wasTriggered es := by simp [huntriggered]
  have hadds : addedIds (es ++ [e]) = addedIds es := by simp [hadded]
  have hremoves : removedIds (es ++ [e]) = removedIds es := by simp [hremoved]
  have hruns : ranIds (es ++ [e]) = ranIds es := by simp [hran]
  have hpending : pendingIds (es ++ [e]) = pendingIds es := by
    rw [pendingIds, pendingIds, hseen, hadds, hremoves]
  constructor
  case triggered => rw [hregistry, hseen, h.triggered]
  case numbers => rw [hregistry, hadds, h.numbers]
  case pending => rw [hregistry, hpending, h.pending]
  case places => rw [hruns, hqueue, hpending, hremoves, hadds]; exact h.places
  case idle => rw [hseen, hruns, hqueue]; exact h.idle
  case cancelled => rw [hseen]; exact hcancelled ∘ h.cancelled
  case listed =>
    intro t hmem
    obtain ⟨hown, hknown⟩ := h.listed t (hregistry ▸ hmem)
    exact ⟨hown, List.mem_append_left _ hknown⟩
  case queued =>
    intro t hmem
    exact List.mem_append_left _ (h.queued t (hqueue ▸ hmem))

theorem add (h : Tracked es w) : Tracked (es ++ [.added w.registry.nextId task])
    (w.enter (w.registry.add (w.registry.nextId, task)).1
      (w.registry.add (w.registry.nextId, task)).2.2.toList) := by
  have hnewest : .added w.registry.nextId task ∈ es ++ [.added w.registry.nextId task] :=
    List.mem_append_right _ (List.mem_singleton_self _)
  have hseen : wasTriggered (es ++ [.added w.registry.nextId task]) = wasTriggered es := by
    simp [wasTriggered]
  have hadds : addedIds (es ++ [.added w.registry.nextId task])
      = addedIds es ++ [w.registry.nextId] := by simp [addedIds]
  have hremoves : removedIds (es ++ [.added w.registry.nextId task]) = removedIds es := by
    simp [removedIds]
  have hruns : ranIds (es ++ [.added w.registry.nextId task]) = ranIds es := by simp [ranIds]
  have hplaces := h.places.append_right [w.registry.nextId]
  cases htriggered : wasTriggered es with
  | true =>
    -- The call runs the task before it returns.
    have hpending := pendingIds_added task h.fresh
    rw [htriggered, if_pos rfl, List.append_nil] at hpending
    rw [add_of_triggered (h.triggered.trans htriggered)]
    constructor
    case triggered => exact h.triggered.trans hseen.symm
    case numbers => rw [hadds, h.numbers, Work.enter, List.range_succ]
    case pending => exact h.pending.trans hpending.symm
    case places =>
      have hqueue : (w.enter { w.registry with nextId := w.registry.nextId + 1 }
          [(w.registry.nextId, task)]).queue.map Prod.fst
        = w.registry.nextId :: w.queue.map Prod.fst := rfl
      rw [hruns, hpending, hremoves, hadds]
      refine .trans (List.perm_iff_count.mpr fun id => ?_) hplaces
      simp only [Option.toList_some, hqueue, List.count_append, List.count_cons, List.count_nil]
      omega
    case idle => rw [hseen, htriggered]; rintro ⟨⟩
    case cancelled => exact fun _ => h.cancelled htriggered
    case listed =>
      intro t hmem
      exact (h.listed t hmem).imp_right (List.mem_append_left _)
    case queued =>
      intro t hmem
      obtain rfl | hold := List.mem_cons.mp hmem
      · exact hnewest
      · exact List.mem_append_left _ (h.queued t hold)
  | false =>
    have hpending := pendingIds_added task h.fresh
    rw [htriggered, if_neg Bool.false_ne_true] at hpending
    rw [add_of_untriggered (h.triggered.trans htriggered)]
    constructor
    case triggered => exact h.triggered.trans hseen.symm
    case numbers => rw [hadds, h.numbers, Work.enter, List.range_succ]
    case pending =>
      rw [hpending, ← h.pending]
      exact List.map_append
    case places =>
      rw [hruns, hpending, hremoves, hadds]
      refine .trans (List.perm_iff_count.mpr fun id => ?_) hplaces
      change List.count id (_ ++ w.queue.map Prod.fst ++ _ ++ _) = _
      simp only [List.count_append]
      omega
    case idle => rw [hseen, hruns]; exact h.idle
    case cancelled => rw [hseen]; exact h.cancelled
    case listed =>
      intro t hmem
      obtain hold | hnew := List.mem_append.mp hmem
      · exact (h.listed t hold).imp_right (List.mem_append_left _)
      · obtain rfl := List.mem_singleton.mp hnew
        exact ⟨rfl, hnewest⟩
    case queued =>
      intro t hmem
      exact List.mem_append_left _ (h.queued t hmem)

theorem remove (h : Tracked es w) (id : Nat) :
    Tracked (es ++ [.removed id (w.registry.remove id).2])
      { w with registry := (w.registry.remove id).1 } := by
  have hanswer : (w.registry.remove id).2 = true ↔ id ∈ pendingIds es := h.found_iff
  have hseen : wasTriggered (es ++ [.removed id (w.registry.remove id).2]) = wasTriggered es := by
    simp [wasTriggered]
  have hadds : addedIds (es ++ [.removed id (w.registry.remove id).2]) = addedIds es := by
    simp [addedIds]
  have hruns : ranIds (es ++ [.removed id (w.registry.remove id).2]) = ranIds es := by
    simp [ranIds]
  have hpending := pendingIds_removed hanswer
  constructor
  case triggered => exact h.triggered.trans hseen.symm
  case numbers => exact hadds.trans h.numbers
  case pending =>
    rw [hpending, ← h.pending, List.filter_map]
    rfl
  case places =>
    rw [hruns, hpending, hadds]
    have hplaces := h.places
    rw [List.append_assoc] at hplaces ⊢
    refine .trans (.append_left _ ?_) hplaces
    cases hfound : (w.registry.remove id).2 with
    | true =>
      have hremoves : removedIds (es ++ [.removed id true]) = removedIds es ++ [id] := by
        simp [removedIds]
      have hmem : id ∈ pendingIds es := hanswer.mp hfound
      have hnodup : (pendingIds es).Nodup :=
        h.nodup.sublist ((List.sublist_append_right _ _).trans (List.sublist_append_left _ _))
      rw [hremoves, ← hnodup.erase_eq_filter, ← List.append_assoc]
      exact List.perm_append_comm.trans ((List.perm_cons_erase hmem).symm.append_right _)
    | false =>
      have hremoves : removedIds (es ++ [.removed id false]) = removedIds es := by
        simp [removedIds]
      have habsent : id ∉ pendingIds es := fun hmem =>
        Bool.false_ne_true (hfound ▸ hanswer.mpr hmem)
      rw [hremoves, List.filter_eq_self.mpr]
      intro other hmem
      exact bne_iff_ne.mpr fun hsame => habsent (hsame ▸ hmem)
  case idle => rw [hseen, hruns]; exact h.idle
  case cancelled => rw [hseen]; exact h.cancelled
  case listed =>
    intro t hmem
    exact (h.listed t (List.mem_filter.mp hmem).1).imp_right (List.mem_append_left _)
  case queued =>
    intro t hmem
    exact List.mem_append_left _ (h.queued t hmem)

theorem trigger (h : Tracked es w) : Tracked (es ++ [.triggered])
    { w.enter w.registry.trigger.1 w.registry.trigger.2 with
      cancelled := w.cancelled || !w.registry.triggered } := by
  have hseen : wasTriggered (es ++ [.triggered]) = true := by simp [wasTriggered]
  have hadds : addedIds (es ++ [.triggered]) = addedIds es := by simp [addedIds]
  have hremoves : removedIds (es ++ [.triggered]) = removedIds es := by simp [removedIds]
  have hruns : ranIds (es ++ [.triggered]) = ranIds es := by simp [ranIds]
  have hpending := pendingIds_of_triggered hseen
  cases htriggered : wasTriggered es with
  | true =>
    -- Only the first trigger finds anything to run.
    have hspent := h.triggered.trans htriggered
    rw [trigger_of_triggered hspent, hspent, Bool.not_true, Bool.or_false]
    constructor
    case triggered => exact hspent.trans hseen.symm
    case numbers => exact hadds.trans h.numbers
    case pending => rw [hpending, ← pendingIds_of_triggered htriggered]; exact h.pending
    case places =>
      rw [hruns, hpending, ← pendingIds_of_triggered htriggered, hremoves, hadds]
      exact h.places
    case idle => rw [hseen]; rintro ⟨⟩
    case cancelled => exact fun _ => h.cancelled htriggered
    case listed =>
      intro t hmem
      exact (h.listed t hmem).imp_right (List.mem_append_left _)
    case queued =>
      intro t hmem
      exact List.mem_append_left _ (h.queued t hmem)
  | false =>
    have hfirst := h.triggered.trans htriggered
    obtain ⟨hnoRuns, hnoQueue⟩ := h.idle htriggered
    rw [trigger_of_untriggered hfirst, hfirst, Bool.not_false, Bool.or_true]
    constructor
    case triggered => exact hseen.symm
    case numbers => exact hadds.trans h.numbers
    case pending => exact hpending.symm
    case places =>
      have hown : (w.registry.tasks.map Prod.snd).map Prod.fst = pendingIds es := by
        rw [← h.pending, List.map_map]
        exact List.map_congr_left fun t hmem => (h.listed t hmem).1
      have hqueue : (w.enter { w.registry with tasks := [], triggered := true }
          (w.registry.tasks.map Prod.snd).reverse).queue.map Prod.fst =
            (pendingIds es).reverse := by
        change List.map Prod.fst ((w.registry.tasks.map Prod.snd).reverse ++ w.queue) = _
        rw [hnoQueue, List.append_nil, List.map_reverse, hown]
      have hplaces := h.places
      rw [hnoRuns, hnoQueue, List.map_nil, List.append_nil, List.nil_append] at hplaces
      rw [hruns, hnoRuns, hpending, hremoves, hadds, List.append_nil, List.nil_append]
      exact .trans (.append_right _ (hqueue ▸ List.reverse_perm _)) hplaces
    case idle => rw [hseen]; rintro ⟨⟩
    case cancelled => exact fun _ => rfl
    case listed => rintro t ⟨⟩
    case queued =>
      intro t hmem
      obtain hnew | hold := List.mem_append.mp hmem
      · obtain ⟨u, hlisted, rfl⟩ := List.mem_map.mp (List.mem_reverse.mp hnew)
        obtain ⟨hown, hknown⟩ := h.listed u hlisted
        exact List.mem_append_left _ (hown ▸ hknown)
      · exact List.mem_append_left _ (h.queued t hold)

theorem queue_of_due {t : Nat × β} {rest : List (Nat × β)} {calls : List (Open β)}
    (htop : w.calls = ⟨none, t :: rest⟩ :: calls) :
    w.queue = t :: (rest ++ calls.flatMap Open.rest) := by rw [Work.queue, htop]; rfl

theorem due {t : Nat × β} {rest : List (Nat × β)} {calls : List (Open β)} (h : Tracked es w)
    (htop : w.calls = ⟨none, t :: rest⟩ :: calls) :
    .added t.1 t.2 ∈ es ∧ wasTriggered es = true := by
  have hqueue := queue_of_due htop
  refine ⟨h.queued t (hqueue ▸ List.mem_cons_self), Bool.of_not_eq_false fun huntriggered => ?_⟩
  rw [(h.idle huntriggered).2] at hqueue
  cases hqueue

theorem begin {t : Nat × β} {rest : List (Nat × β)} {calls : List (Open β)} (h : Tracked es w)
    (htop : w.calls = ⟨none, t :: rest⟩ :: calls) :
    Tracked (es ++ [.began t.1 t.2 w.cancelled]) { w with calls := ⟨some t.1, rest⟩ :: calls } := by
  have hseen : wasTriggered (es ++ [.began t.1 t.2 w.cancelled]) = wasTriggered es := by
    simp [wasTriggered]
  have hadds : addedIds (es ++ [.began t.1 t.2 w.cancelled]) = addedIds es := by simp [addedIds]
  have hremoves : removedIds (es ++ [.began t.1 t.2 w.cancelled]) = removedIds es := by
    simp [removedIds]
  have hruns : ranIds (es ++ [.began t.1 t.2 w.cancelled]) = ranIds es ++ [t.1] := by simp [ranIds]
  have hpending : pendingIds (es ++ [.began t.1 t.2 w.cancelled]) = pendingIds es := by
    rw [pendingIds, pendingIds, hseen, hadds, hremoves]
  have hqueue := queue_of_due htop
  have htriggered := (h.due htop).2
  constructor
  case triggered => exact h.triggered.trans hseen.symm
  case numbers => exact hadds.trans h.numbers
  case pending => exact h.pending.trans hpending.symm
  case places =>
    rw [hruns, hpending, hremoves, hadds]
    have hplaces := h.places
    rw [hqueue] at hplaces
    change ((ranIds es ++ [t.1]) ++ (rest ++ calls.flatMap Open.rest).map Prod.fst ++ _ ++ _).Perm _
    simpa using hplaces
  case idle => rw [hseen, htriggered]; rintro ⟨⟩
  case cancelled => rw [hseen]; exact h.cancelled
  case listed =>
    intro t hmem
    exact (h.listed t hmem).imp_right (List.mem_append_left _)
  case queued =>
    intro u hmem
    exact List.mem_append_left _ (h.queued u (hqueue ▸ List.mem_cons_of_mem _ hmem))

theorem step (h : Tracked es w) (hstep : Step w e w') : Tracked (es ++ [e]) w' := by
  cases hstep with
  | add task hfree => exact h.add
  | remove id hfree => exact h.remove id
  | trigger hfree => exact h.trigger
  | cancel hfree => exact h.quiet rfl rfl rfl rfl rfl rfl fun _ => rfl
  | begin htop => exact h.begin htop
  | finish htop => exact h.quiet rfl rfl rfl rfl rfl (by simp [Work.queue, htop]) id
  | leave htop => exact h.quiet rfl rfl rfl rfl rfl (by simp [Work.queue, htop]) id

theorem run (h : Tracked es w) (hrun : Run w es' w') : Tracked (es ++ es') w' := by
  induction hrun generalizing es with
  | stay => exact (List.append_nil es).symm ▸ h
  | step hfirst hrest ih =>
    have hnext := ih (h.step hfirst)
    rwa [List.append_assoc] at hnext

end Tracked

end Headend.Shutdown
