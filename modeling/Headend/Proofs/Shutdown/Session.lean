import Headend.Proofs.Shutdown.Orderly

/-!
# Sessions are work with a registry

`perform` plays calls whose tasks are written down in advance. What it plays is a `Run` of the
registry, whatever its fuel (`perform_plays`); and the fuel it is given is enough to play the calls
to their end (`perform_enough`), since each call that is played is gone from what is left to play.
-/

namespace Headend.Shutdown

/-! ## The registry with numbered tasks -/

section

variable {α : Type}

/-- Each task comes with the number it is registered under. -/
def numbered (s : Shutdown α) : Shutdown (Nat × α) :=
  ⟨s.tasks.map fun t => (t.1, t), s.nextId, s.triggered⟩

theorem numbered_add (s : Shutdown α) (task : α) : s.numbered.add (s.nextId, task)
    = ((s.add task).1.numbered, s.nextId, (s.add task).2.2.map fun t => (s.nextId, t)) := by
  cases htriggered : s.triggered with
  | true =>
    rw [add_of_triggered htriggered, add_of_triggered (s := s.numbered) htriggered]
    rfl
  | false =>
    rw [add_of_untriggered htriggered, add_of_untriggered (s := s.numbered) htriggered]
    simp [numbered]

theorem numbered_remove (s : Shutdown α) (id : Nat) :
    s.numbered.remove id = ((s.remove id).1.numbered, (s.remove id).2) := by
  simp only [remove, numbered, List.filter_map, List.any_map]
  rfl

theorem numbered_trigger (s : Shutdown α) : s.numbered.trigger.1 = s.trigger.1.numbered ∧
    s.numbered.trigger.2.map Prod.snd = s.trigger.2 := by
  cases htriggered : s.triggered with
  | true =>
    rw [trigger_of_triggered htriggered, trigger_of_triggered (s := s.numbered) htriggered]
    exact ⟨rfl, rfl⟩
  | false =>
    rw [trigger_of_untriggered htriggered, trigger_of_untriggered (s := s.numbered) htriggered]
    simp [numbered, Function.comp_def]

end

/-! ## Calls and the tasks they run -/

/-- The calls of the task of this name, one after the other. -/
def runCalls (fuel : Nat) (name : String) (s : Session) (body : List Call) : Session :=
  body.foldl (fun s c => (perform fuel s c).1.record (.called name (perform fuel s c).2)) s

def runTask (fuel : Nat) (s : Session) (t : Task) : Session :=
  runCalls fuel t.name (s.record (.ran t.name)) t.body

theorem perform_add (fuel : Nat) (s : Session) (name : String) (body : List Call) :
    perform (fuel + 1) s (.add name body)
      = let s' := (s.registry.add ⟨name, body⟩).2.2.elim
          { s with registry := (s.registry.add ⟨name, body⟩).1 }
          (runTask fuel { s with registry := (s.registry.add ⟨name, body⟩).1 })
        ({ s' with added := s'.added ++ [(s.registry.add ⟨name, body⟩).2.1] },
          .id (s.registry.add ⟨name, body⟩).2.1) := rfl

theorem perform_trigger (fuel : Nat) (s : Session) : perform (fuel + 1) s .trigger
    = (s.registry.trigger.2.foldl (runTask fuel) { s with
        registry := s.registry.trigger.1,
        tokenCancelled := s.tokenCancelled || !s.registry.triggered }, .none) := rfl

namespace Session

variable {s s' s'' : Session} {es es' : List (Event Task)} {calls calls' calls'' : List (Open Task)}

/-- The names of the tasks that ran, as the log has them. -/
def ran (s : Session) : List String :=
  s.log.filterMap fun
    | .ran name => some name
    | .called _ _ => none

end Session

/-- The names of the tasks that ran, as an observer sees them. -/
def ranNames (es : List (Event Task)) : List String :=
  es.filterMap fun
    | .began _ task _ => some task.name
    | _ => none

def Session.work (s : Session) (calls : List (Open Task)) : Work Task :=
  ⟨s.registry.numbered, s.tokenCancelled, calls⟩

/-- From one state of a session to another, with calls that have not returned in both. -/
structure Plays (s : Session) (calls : List (Open Task)) (es : List (Event Task)) (s' : Session)
    (calls' : List (Open Task)) : Prop where
  run : Run (s.work calls) es (s'.work calls')
  ran : s'.ran = s.ran ++ ranNames es

section

variable {s s' s'' : Session} {es es' : List (Event Task)} {calls calls' calls'' : List (Open Task)}
  {fuel : Nat}

theorem Plays.refl (s : Session) (calls : List (Open Task)) : Plays s calls [] s calls :=
  ⟨.stay _, (List.append_nil _).symm⟩

theorem Plays.append (h : Plays s calls es s' calls') (h' : Plays s' calls' es' s'' calls'') :
    Plays s calls (es ++ es') s'' calls'' where
  run := h.run.append h'.run
  ran := by
    rw [h'.ran, h.ran, List.append_assoc]
    exact congrArg _ List.filterMap_append.symm

/-- A call that is played in the time of any code, and returns to it. -/
def Playable (fuel : Nat) : Prop := ∀ (s : Session) (call : Call) (calls : List (Open Task)),
  (s.work calls).Free → ∃ es, Plays s calls es (perform fuel s call).1 calls

theorem Playable.body (h : Playable fuel) (name : String) (body : List Call)
    (hfree : (s.work calls).Free) : ∃ es, Plays s calls es (runCalls fuel name s body) calls := by
  induction body generalizing s with
  | nil => exact ⟨[], .refl s calls⟩
  | cons call body ih =>
    obtain ⟨es, hfirst⟩ := h s call calls hfree
    have hnoted : Plays s calls es
        ((perform fuel s call).1.record (.called name (perform fuel s call).2)) calls :=
      ⟨hfirst.run, by rw [← hfirst.ran]; simp [Session.ran, Session.record]⟩
    obtain ⟨es', hrest⟩ := ih (s := (perform fuel s call).1.record _) hfree
    exact ⟨es ++ es', hnoted.append hrest⟩

theorem Playable.task (h : Playable fuel) (s : Session) (calls : List (Open Task))
    (t : Nat × Task) (rest : List (Nat × Task)) :
    ∃ es, Plays s (⟨none, t :: rest⟩ :: calls) es (runTask fuel s t.2) (⟨none, rest⟩ :: calls) := by
  have hbegins : Plays s (⟨none, t :: rest⟩ :: calls) [.began t.1 t.2 s.tokenCancelled]
      (s.record (.ran t.2.name)) (⟨some t.1, rest⟩ :: calls) :=
    ⟨.single (.begin (w := s.work _) rfl), by simp [Session.ran, Session.record, ranNames]⟩
  have hfree : ((s.record (.ran t.2.name)).work (⟨some t.1, rest⟩ :: calls)).Free := by
    rintro c ⟨⟩
    rfl
  obtain ⟨es, hbody⟩ := h.body t.2.name t.2.body hfree
  have hends : Plays (runTask fuel s t.2) (⟨some t.1, rest⟩ :: calls) [.ended t.1]
      (runTask fuel s t.2) (⟨none, rest⟩ :: calls) :=
    ⟨.single (.finish (w := Session.work _ _) rfl), (List.append_nil _).symm⟩
  exact ⟨_, (hbegins.append hbody).append hends⟩

theorem Playable.tasks (h : Playable fuel) (s : Session) (calls : List (Open Task))
    (tasks : List (Nat × Task)) :
    ∃ es, Plays s (⟨none, tasks⟩ :: calls) es ((tasks.map Prod.snd).foldl (runTask fuel) s)
      calls := by
  induction tasks generalizing s with
  | nil => exact ⟨_, .single (.leave (w := s.work _) rfl), (List.append_nil _).symm⟩
  | cons t tasks ih =>
    obtain ⟨es, hfirst⟩ := h.task s calls t tasks
    obtain ⟨es', hrest⟩ := ih (runTask fuel s t.2)
    exact ⟨es ++ es', hfirst.append hrest⟩

theorem perform_plays (fuel : Nat) : Playable fuel := by
  induction fuel with
  | zero => exact fun s call calls _ => ⟨[], .refl s calls⟩
  | succ fuel ih =>
    intro s call calls hfree
    cases call with
    | add name body =>
      have hstep := Step.add (w := s.work calls) ⟨name, body⟩ hfree
      have hadded := numbered_add s.registry ⟨name, body⟩
      change Step (s.work calls) (.added s.registry.nextId ⟨name, body⟩)
        ((s.work calls).enter (s.registry.numbered.add (s.registry.nextId, ⟨name, body⟩)).1
          (s.registry.numbered.add (s.registry.nextId, ⟨name, body⟩)).2.2.toList) at hstep
      rw [hadded] at hstep
      obtain ⟨es, hrest⟩ := ih.tasks { s with registry := (s.registry.add ⟨name, body⟩).1 } calls
        ((s.registry.add ⟨name, body⟩).2.2.map fun t => (s.registry.nextId, t)).toList
      rw [perform_add]
      refine ⟨.added s.registry.nextId ⟨name, body⟩ :: es, .step hstep ?_, ?_⟩
      · cases hnow : (s.registry.add ⟨name, body⟩).2.2 <;> rw [hnow] at hrest <;> exact hrest.run
      · cases hnow : (s.registry.add ⟨name, body⟩).2.2 <;> rw [hnow] at hrest <;> exact hrest.ran
    | remove position =>
      simp only [perform]
      split
      · exact ⟨[], .refl s calls⟩
      · rename_i id hknown
        have hstep := Step.remove (w := s.work calls) id hfree
        change Step (s.work calls) (.removed id (s.registry.numbered.remove id).2)
          ⟨(s.registry.numbered.remove id).1, s.tokenCancelled, calls⟩ at hstep
        rw [numbered_remove] at hstep
        exact ⟨_, .single hstep, (List.append_nil _).symm⟩
    | trigger =>
      have hstep := Step.trigger (w := s.work calls) hfree
      obtain ⟨hregistry, hhanded⟩ := numbered_trigger s.registry
      obtain ⟨es, hrest⟩ := ih.tasks { s with
        registry := s.registry.trigger.1,
        tokenCancelled := s.tokenCancelled || !s.registry.triggered } calls
        s.registry.numbered.trigger.2
      rw [hhanded] at hrest
      rw [perform_trigger]
      change Step (s.work calls) .triggered ⟨s.registry.numbered.trigger.1,
        s.tokenCancelled || !s.registry.triggered,
        ⟨none, s.registry.numbered.trigger.2⟩ :: calls⟩ at hstep
      rw [hregistry] at hstep
      exact ⟨_, .step hstep hrest.run, hrest.ran⟩
    | cancelToken =>
      exact ⟨_, .single (.cancel (w := s.work calls) hfree), (List.append_nil _).symm⟩
    | pending | cancelled => exact ⟨[], .refl s calls⟩

end

/-! ## The fuel is enough -/

theorem Call.totalSize_append (cs cs' : List Call) :
    Call.totalSize (cs ++ cs') = Call.totalSize cs + Call.totalSize cs' := by
  induction cs with
  | nil => exact (Nat.zero_add _).symm
  | cons c cs ih =>
    rw [List.cons_append, Call.totalSize, Call.totalSize, ih, Nat.add_assoc]

/-- The calls that tasks hold. -/
def callsOf (tasks : List Task) : Nat := Call.totalSize (tasks.flatMap Task.body)

@[simp] theorem callsOf_nil : callsOf [] = 0 := rfl

@[simp] theorem callsOf_cons (t : Task) (tasks : List Task) :
    callsOf (t :: tasks) = Call.totalSize t.body + callsOf tasks := Call.totalSize_append _ _

@[simp] theorem callsOf_append (tasks tasks' : List Task) :
    callsOf (tasks ++ tasks') = callsOf tasks + callsOf tasks' := by
  rw [callsOf, List.flatMap_append, Call.totalSize_append]
  rfl

theorem callsOf_reverse (tasks : List Task) : callsOf tasks.reverse = callsOf tasks := by
  induction tasks with
  | nil => rfl
  | cons t tasks ih => simp [ih, Nat.add_comm]

theorem callsOf_sublist {tasks tasks' : List Task} (h : tasks.Sublist tasks') :
    callsOf tasks ≤ callsOf tasks' := by
  induction h with
  | slnil => exact Nat.le_refl _
  | cons t h ih => exact Nat.le_trans ih (by simp)
  | cons_cons t h ih => simpa using ih

/-- The calls that wait in pending tasks. -/
def Session.waiting (s : Session) : Nat := callsOf (s.registry.tasks.map Prod.snd)

/-- One unit of fuel more makes no difference to a call that comes on top of those that wait. The
call itself is played, and waits no more. -/
def Ample (fuel : Nat) : Prop := ∀ (s : Session) (call : Call), s.waiting + call.size ≤ fuel →
  perform (fuel + 1) s call = perform fuel s call ∧
    (perform fuel s call).1.waiting < s.waiting + call.size

section

variable {s : Session} {fuel : Nat}

theorem Ample.body (h : Ample fuel) (name : String) (body : List Call)
    (henough : s.waiting + Call.totalSize body ≤ fuel) :
    runCalls (fuel + 1) name s body = runCalls fuel name s body ∧
      (runCalls fuel name s body).waiting ≤ s.waiting + Call.totalSize body := by
  induction body generalizing s with
  | nil => exact ⟨rfl, Nat.le_refl _⟩
  | cons call body ih =>
    rw [Call.totalSize] at henough ⊢
    obtain ⟨hsame, hfewer⟩ := h s call (by omega)
    have hnoted : ((perform fuel s call).1.record (.called name (perform fuel s call).2)).waiting
      = (perform fuel s call).1.waiting := rfl
    obtain ⟨hrest, hbound⟩ :=
      ih (s := (perform fuel s call).1.record (.called name (perform fuel s call).2)) (by omega)
    rw [runCalls, runCalls, List.foldl_cons, List.foldl_cons, hsame]
    exact ⟨hrest, Nat.le_trans hbound (by omega)⟩

theorem Ample.task (h : Ample fuel) (t : Task)
    (henough : s.waiting + Call.totalSize t.body ≤ fuel) :
    runTask (fuel + 1) s t = runTask fuel s t ∧
      (runTask fuel s t).waiting ≤ s.waiting + Call.totalSize t.body :=
  h.body (s := s.record (.ran t.name)) t.name t.body henough

theorem Ample.tasks (h : Ample fuel) (tasks : List Task)
    (henough : s.waiting + callsOf tasks ≤ fuel) :
    tasks.foldl (runTask (fuel + 1)) s = tasks.foldl (runTask fuel) s ∧
      (tasks.foldl (runTask fuel) s).waiting ≤ s.waiting + callsOf tasks := by
  induction tasks generalizing s with
  | nil => exact ⟨rfl, Nat.le_refl _⟩
  | cons t tasks ih =>
    rw [callsOf_cons] at henough ⊢
    obtain ⟨hsame, hbound⟩ := h.task (s := s) t (by omega)
    obtain ⟨hrest, hlast⟩ := ih (s := runTask fuel s t) (by omega)
    rw [List.foldl_cons, List.foldl_cons, hsame]
    exact ⟨hrest, by omega⟩

theorem ample (fuel : Nat) : Ample fuel := by
  induction fuel with
  | zero =>
    intro s call henough
    have hpositive : 0 < call.size := by cases call <;> rw [Call.size] <;> omega
    omega
  | succ fuel ih =>
    intro s call henough
    cases call with
    | add name body =>
      rw [Call.size] at henough ⊢
      rw [perform_add, perform_add]
      cases htriggered : s.registry.triggered with
      | true =>
        rw [add_of_triggered htriggered]
        obtain ⟨hsame, hbound⟩ := ih.task (s := { s with
          registry := { s.registry with nextId := s.registry.nextId + 1 } }) ⟨name, body⟩ (by
            change s.waiting + Call.totalSize body ≤ fuel
            omega)
        refine ⟨by simp only [Option.elim_some, hsame], Nat.lt_of_le_of_lt hbound ?_⟩
        change s.waiting + Call.totalSize body < _
        omega
      | false =>
        rw [add_of_untriggered htriggered]
        refine ⟨rfl, ?_⟩
        change callsOf (List.map Prod.snd (s.registry.tasks ++ [_])) < _
        rw [List.map_append, callsOf_append]
        change s.waiting + Call.totalSize (body ++ []) < _
        rw [List.append_nil]
        omega
    | remove position =>
      rw [Call.size]
      refine ⟨rfl, Nat.lt_succ_of_le ?_⟩
      simp only [perform]
      split
      · exact Nat.le_refl _
      · exact callsOf_sublist (List.filter_sublist.map _)
    | trigger =>
      rw [Call.size] at henough ⊢
      rw [perform_trigger, perform_trigger]
      cases htriggered : s.registry.triggered with
      | true =>
        rw [trigger_of_triggered htriggered]
        exact ⟨rfl, Nat.lt_succ_self _⟩
      | false =>
        rw [trigger_of_untriggered htriggered]
        have hhanded : callsOf (s.registry.tasks.map Prod.snd).reverse = s.waiting :=
          callsOf_reverse _
        obtain ⟨hsame, hbound⟩ := ih.tasks (s := { s with
          registry := { s.registry with tasks := [], triggered := true },
          tokenCancelled := s.tokenCancelled || !false })
          (s.registry.tasks.map Prod.snd).reverse (by
            change 0 + _ ≤ _
            omega)
        refine ⟨by rw [hsame], Nat.lt_of_le_of_lt hbound ?_⟩
        change 0 + _ < _
        omega
    | cancelToken | pending | cancelled =>
      rw [Call.size]
      exact ⟨rfl, Nat.lt_succ_self _⟩

theorem perform_enough {call : Call} (henough : s.waiting + call.size ≤ fuel) {more : Nat}
    (hle : fuel ≤ more) : perform more s call = perform fuel s call := by
  induction hle with
  | refl => rfl
  | step hle ih => exact ((ample _ s call (Nat.le_trans henough hle)).1).trans ih

end

theorem Session.perform_eq (s : Session) (call : Call) {fuel : Nat}
    (henough : s.waiting + call.size ≤ fuel) : Shutdown.perform fuel s call = s.perform call := by
  have hwaiting : Call.totalSize (s.registry.tasks.flatMap fun t => t.2.body) = s.waiting := by
    rw [Session.waiting, callsOf, List.flatMap_map]
  rw [Session.perform, hwaiting]
  obtain hle | hle := Nat.le_total fuel (s.waiting + s.registry.tasks.length + call.size + 1)
  · exact (perform_enough henough hle).symm
  · exact perform_enough (by omega) hle

/-! ## From a new registry -/

/-- What the owner's calls leave, one after the other. -/
def Session.play (calls : List Call) : Session :=
  calls.foldl (fun s call => (s.perform call).1) .new

theorem Session.play_plays (calls : List Call) :
    ∃ es, Plays .new [] es (Session.play calls) [] := by
  suffices ∀ s : Session,
      ∃ es, Plays s [] es (calls.foldl (fun s call => (s.perform call).1) s) [] from this .new
  induction calls with
  | nil => exact fun s => ⟨[], .refl s []⟩
  | cons call calls ih =>
    intro s
    obtain ⟨es, hfirst⟩ := perform_plays _ s call [] (by rintro c ⟨⟩)
    obtain ⟨es', hrest⟩ := ih (s.perform call).1
    exact ⟨es ++ es', hfirst.append hrest⟩

/-- A teardown is orderly, whatever code adds, removes and triggers. Written sessions are such
code, and what they play is the whole of it, since more fuel plays nothing else. -/
theorem teardown_orderly :
    (∀ {β : Type} {es : List (Event β)} {w : Work β}, Run .new es w → w.calls = [] → Orderly es) ∧
    (∀ calls : List Call, ∃ es, Plays .new [] es (Session.play calls) [] ∧ Orderly es) ∧
    ∀ (s : Session) (call : Call) (fuel : Nat), s.waiting + call.size ≤ fuel →
      Shutdown.perform fuel s call = s.perform call := by
  refine ⟨Run.orderly, fun calls => ?_, fun s call fuel => s.perform_eq call⟩
  obtain ⟨es, hplays⟩ := Session.play_plays calls
  exact ⟨es, hplays, hplays.run.orderly rfl⟩

/-- A task adds another and triggers again while the first trigger runs; one task was removed, and
one comes late. -/
theorem teardown_orderly_reentrant :
    (∃ es : List (Event Task), Orderly es ∧ ranNames es = ["b", "a", "inner", "late"]) ∧
      Shutdown.perform 2 .new (.add "a" [.trigger]) =
        Session.new.perform (.add "a" [.trigger]) := by
  obtain ⟨es, hplays, -⟩ := teardown_orderly.2.1 [.add "a" [.add "inner" [], .trigger],
    .add "b" [.remove 0, .cancelToken], .add "c" [], .remove 2, .trigger, .add "late" []]
  exact ⟨⟨es, teardown_orderly.1 hplays.run rfl, hplays.ran.symm.trans (by decide)⟩,
    teardown_orderly.2.2 .new (.add "a" [.trigger]) 2 (by decide)⟩

end Headend.Shutdown
