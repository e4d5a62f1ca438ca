import Headend.Proofs.Ingest.Drift
import Headend.Proofs.Plant.Rest

/-!
# The slot and the sessions around it

Every session has a stream, a token and a run that drives it. `Tended` is what holds of each of
them: its stream is the one in the slot, or it is destroyed and its token cancelled. `Tidy` says so
of all sessions, with what shutdown holds for the slot, and `Sound` adds that the run of the stream
in the slot has not returned. While a run returns, the registry is only tidy.
-/

namespace Headend

/-! ## Shutdown -/

namespace Shutdown

variable {α : Type} (s : Shutdown α)

/-- Forget tasks. -/
def forget (ids : List Nat) : Shutdown α := ids.foldl (fun s id => (s.remove id).1) s

theorem triggered_forget (ids : List Nat) : (s.forget ids).triggered = s.triggered := by
  induction ids generalizing s with
  | nil => rfl
  | cons id ids ih => exact ih _

theorem tasks_forget (ids : List Nat) (hempty : s.tasks = []) : (s.forget ids).tasks = [] := by
  induction ids generalizing s with
  | nil => exact hempty
  | cons id ids ih =>
    apply ih
    simp only [remove, hempty, List.filter_nil]

end Shutdown

namespace Ingest

open Plant

/-! ## What shutdown holds for the slot -/

/-- While a stream is in the slot shutdown holds two tasks for it. Otherwise, and once shutdown was
triggered, it holds none. -/
structure Listed (active : Option Active) (s : Shutdown Teardown) : Prop where
  idle : s.triggered = true ∨ active = none → s.tasks = []
  held : s.triggered = false → ∀ a, active = some a → ∃ d c, d ≠ c ∧ a.tasks = [d, c]
    ∧ s.tasks = [(d, .destroy a.stream), (c, .cancel a.token)]

namespace Listed

variable {active : Option Active} {a : Active} {s : Shutdown Teardown}

theorem new : Listed none .new := ⟨fun _ => rfl, nofun⟩

theorem pending (h : Listed active s) :
    s.pending = if s.triggered = true then 0 else if active.isSome = true then 2 else 0 := by
  rw [Shutdown.pending]
  split
  case isTrue htriggered =>
    rw [h.idle (.inl htriggered), List.length_nil]
  case isFalse huntouched =>
    cases active with
    | none =>
      rw [h.idle (.inr rfl)]
      rfl
    | some a =>
      obtain ⟨d, c, -, -, htasks⟩ := h.held (Bool.eq_false_iff.mpr huntouched) a rfl
      rw [htasks]
      rfl

theorem trigger (h : Listed active s) : Listed active s.trigger.1 := by
  rw [Shutdown.trigger]
  split
  · exact h
  · refine ⟨fun _ => rfl, ?_⟩
    rintro ⟨⟩

/-- The stream leaves the slot. -/
theorem release (h : Listed (some a) s) : Listed none (s.forget a.tasks) := by
  refine ⟨fun _ => ?_, nofun⟩
  cases htriggered : s.triggered with
  | true => exact s.tasks_forget _ (h.idle (.inl htriggered))
  | false =>
    obtain ⟨d, c, hne, hids, htasks⟩ := h.held htriggered a rfl
    simp [Shutdown.forget, hids, Shutdown.remove, htasks, hne.symm]

/-- A stream takes the slot. -/
theorem add (h : Listed none s) (i token : Nat) :
    Listed (some ⟨i, token,
        [(s.add (.destroy i)).2.1, ((s.add (.destroy i)).1.add (.cancel token)).2.1]⟩)
      ((s.add (.destroy i)).1.add (.cancel token)).1 := by
  have hempty := h.idle (.inr rfl)
  have hsame := s.triggered_add (.destroy i)
  cases htriggered : s.triggered with
  | true =>
    rw [Shutdown.add_of_triggered (hsame.trans htriggered), Shutdown.add_of_triggered htriggered]
    refine ⟨fun _ => hempty, fun huntouched => ?_⟩
    cases huntouched.symm.trans htriggered
  | false =>
    rw [Shutdown.add_of_untriggered (hsame.trans htriggered),
      Shutdown.add_of_untriggered htriggered, hempty]
    refine ⟨fun hnone => ?_, ?_⟩
    · obtain hfired | hheld := hnone
      · cases hfired.symm.trans htriggered
      · cases hheld
    · rintro - a ⟨⟩
      exact ⟨s.nextId, s.nextId + 1, Nat.ne_of_lt (Nat.lt_succ_self _), rfl, rfl⟩

end Listed

/-! ## Runs -/

/-- What a run at work on a stream stands on: a token that is cancelled with that of its session and
with that of the stream, and consumers that work for it. -/
structure Serves (p : Plant) (token : Nat) (x : Stream) (session : Nat) : Prop where
  size : session < p.tokens.all.length
  ancestors : p.tokens.ancestors session = token :: p.tokens.ancestors token
  tied : p.Ties x.closed session
  works : ∀ c ∈ x.consumers, p.Works c session

/-- The stream and the run of a session. -/
structure Driven (p : Plant) (i token : Nat) (x : Stream) (run : Run) : Prop where
  stream : run.stream = i
  own : run.token = token
  drives : run.drives = true
  size : token < p.tokens.all.length
  sealed : x.Sealed p
  called : run.phase = .called → x.consumers = []
  running : run.phase = .running → ∃ session, run.session = some session ∧ Serves p token x session

section

variable {p p' : Plant} {i token session : Nat} {x x' : Stream} {run : Run}

theorem Serves.grow (h : Serves p token x session) (hg : p.Grows p')
    (hsize : token < p.tokens.all.length) (hclosed : x'.closed = x.closed)
    (hconsumers : x'.consumers = x.consumers) : Serves p' token x' session where
  size := Nat.lt_of_lt_of_le h.size hg.tokens.size
  ancestors := by
    rw [hg.tokens.ancestors _ h.size, hg.tokens.ancestors _ hsize]
    exact h.ancestors
  tied := hclosed ▸ hg.ties _ _ h.size h.tied
  works c hmem := hg.works c session (h.works c (hconsumers ▸ hmem))

/-- When its session's token or its stream's token is cancelled, a link at rest has cancelled the
run's token. -/
theorem Serves.cancelled (h : Serves p token x session) (hrest : ∀ k, p.step (.link k) = none)
    (hcause : p.tokens.cancelled token = true ∨ p.tokens.cancelled x.closed = true) :
    p.tokens.cancelled session = true := by
  cases hcause with
  | inl hown => exact Tokens.cancelled_of_parent hown h.ancestors
  | inr hclosed => exact h.tied.cancelled_of_rest hrest hclosed

theorem Driven.becomes (h : Driven p i token x run) (hg : p.Grows p') (hb : x.Becomes p p' x') :
    Driven p' i token x' run where
  stream := h.stream
  own := h.own
  drives := h.drives
  size := Nat.lt_of_lt_of_le h.size hg.tokens.size
  sealed := hb.sealed h.sealed
  called hphase := hb.consumers.trans (h.called hphase)
  running hphase := by
    obtain ⟨session, hown, hserves⟩ := h.running hphase
    exact ⟨session, hown, hserves.grow hg h.size hb.closed hb.consumers⟩

end

/-! ## Sessions -/

namespace Registry

variable {r r' : Registry} {i token : Nat} {x : Stream} {run : Run} {a : Active}

/-- A session with its stream and its run. -/
structure Tends (r : Registry) (i token : Nat) (x : Stream) (run : Run) : Prop where
  session : r.sessions[i]? = some ⟨i, token⟩
  stream : r.streams[i]? = some x
  drive : r.runs[i]? = some run
  driven : Driven r.plant i token x run
  place : (∃ tasks, r.active = some ⟨i, token, tasks⟩)
    ∨ (x.destroyed = true ∧ r.plant.tokens.fired token = true)

def Tended (r : Registry) (i : Nat) : Prop := ∃ token x run, r.Tends i token x run

structure Tidy (r : Registry) : Prop where
  sessions : r.sessions.length = r.streams.length
  runs : r.runs.length = r.streams.length
  tended : ∀ i, i < r.streams.length → r.Tended i
  seated : ∀ a, r.active = some a → r.sessions[a.stream]? = some ⟨a.stream, a.token⟩
  listed : Listed r.active r.shutdown

/-- The run of the stream in the slot has not returned. -/
structure Sound (r : Registry) : Prop extends Tidy r where
  attended : ∀ (a : Active) (run : Run), r.active = some a → r.runs[a.stream]? = some run →
    run.phase ≠ .returned

/-- A session lives on while plant and streams change, as long as it keeps its place. -/
theorem Tended.carry (h : r.Tended i) (hg : r.plant.Grows r'.plant)
    (hstreams : ∀ x, r.streams[i]? = some x →
      ∃ x' : Stream, r'.streams[i]? = some x' ∧ x.Becomes r.plant r'.plant x')
    (hsessions : r'.sessions[i]? = r.sessions[i]?) (hruns : r'.runs[i]? = r.runs[i]?)
    (hslot : ∀ a, r.active = some a → a.stream = i → a.token < r.plant.tokens.all.length →
      r'.active = some a ∨ (∀ x, r'.streams[i]? = some x → x.destroyed = true)
        ∧ r'.plant.tokens.fired a.token = true) : r'.Tended i := by
  obtain ⟨token, x, run, ht⟩ := h
  obtain ⟨x', hfound, hbecomes⟩ := hstreams x ht.stream
  refine ⟨token, x', run, hsessions.trans ht.session, hfound, hruns.trans ht.drive,
    ht.driven.becomes hg hbecomes, ?_⟩
  -- Its place is the slot, kept or lost, or it lost it before.
  obtain ⟨tasks, hactive⟩ | ⟨hdestroyed, hfired⟩ := ht.place
  · obtain hsame | ⟨hdestroyed, hfired⟩ := hslot _ hactive rfl ht.driven.size
    · exact .inl ⟨tasks, hsame⟩
    · exact .inr ⟨hdestroyed x' hfound, hfired⟩
  · exact .inr ⟨hbecomes.destroyed hdestroyed, hg.tokens.fired _ hfired⟩

theorem Tidy.lt (h : r.Tidy) (hactive : r.active = some a) : a.stream < r.streams.length :=
  h.sessions ▸ (List.getElem?_eq_some_iff.mp (h.seated a hactive)).1

theorem Tidy.tends {k : Nat} (h : r.Tidy) (hk : r.runs[k]? = some run) :
    ∃ token x, r.Tends k token x run := by
  have hbound : k < r.streams.length := h.runs ▸ (List.getElem?_eq_some_iff.mp hk).1
  obtain ⟨token, x, run', ht⟩ := h.tended k hbound
  obtain rfl := Option.some.inj (hk.symm.trans ht.drive)
  exact ⟨token, x, ht⟩

theorem Tidy.drift (h : r.Tidy) (hd : r.Drifts r') : r'.Tidy where
  sessions := by rw [hd.sessions, hd.size, h.sessions]
  runs := by rw [hd.runs, hd.size, h.runs]
  tended i hbound := by
    refine (h.tended i (hd.size ▸ hbound)).carry hd.plant (hd.streams i) (by rw [hd.sessions])
      (by rw [hd.runs]) ?_
    intro a hactive _ _
    exact .inl (hd.active.trans hactive)
  seated a hactive := hd.sessions ▸ h.seated a (hd.active ▸ hactive)
  listed := by
    rw [hd.active, hd.shutdown]
    exact h.listed

theorem Sound.drift (h : r.Sound) (hd : r.Drifts r') : r'.Sound where
  toTidy := h.toTidy.drift hd
  attended a run hactive ha := h.attended a run (hd.active ▸ hactive) (hd.runs ▸ ha)

/-! ### Leaving the slot -/

theorem Drifts.vacate (hd : r.Drifts r') :
    ({ r with active := none } : Registry).Drifts { r' with active := none } :=
  { hd with active := rfl }

theorem Drifts.relist (hd : r.Drifts r') (f : Shutdown Teardown → Shutdown Teardown) :
    ({ r with shutdown := f r.shutdown } : Registry).Drifts { r' with shutdown := f r'.shutdown } :=
  { hd with shutdown := congrArg f hd.shutdown }

theorem release_drifts (r : Registry) (a : Active) :
    ({ r with active := none, shutdown := r.shutdown.forget a.tasks } : Registry).Drifts
      (release { r with active := none } a) := by
  have hcancelled := Drifts.plants (r := { r with active := none }) (.cancel r.plant a.token)
  have hd := hcancelled.trans (.destroy _ a.stream)
  have htasks : (release { r with active := none } a).shutdown = r.shutdown.forget a.tasks := by
    simp only [release, hd.shutdown]
    rfl
  exact { hd with shutdown := htasks }

theorem Tidy.release (h : r.Tidy) (hactive : r.active = some a) :
    (Registry.release { r with active := none } a).Tidy := by
  have hd := release_drifts r a
  constructor
  case sessions => rw [hd.sessions, hd.size, h.sessions]
  case runs => rw [hd.runs, hd.size, h.runs]
  case tended =>
    intro i hbound
    refine (h.tended i (hd.size ▸ hbound)).carry hd.plant (hd.streams i) (by rw [hd.sessions])
      (by rw [hd.runs]) ?_
    -- What was in the slot is destroyed and cancelled on its way out.
    rintro b hother rfl hsize
    obtain rfl : a = b := Option.some.inj (hactive.symm.trans hother)
    obtain ⟨x, hfound⟩ : ∃ x, r.streams[a.stream]? = some x :=
      ⟨_, List.getElem?_eq_getElem (hd.size ▸ hbound)⟩
    obtain ⟨x', hfound', hgone⟩ := destroyed_destroy
      (r := { r with active := none, plant := r.plant.cancel a.token }) hfound
    refine .inr ⟨fun y hy => ?_, ?_⟩
    · obtain rfl : x' = y := Option.some.inj (hfound'.symm.trans hy)
      exact hgone
    · exact (Drifts.destroy _ _).plant.tokens.fired _ (Tokens.fired_cancel_self hsize)
  case seated =>
    intro b hoccupied
    rw [hd.active] at hoccupied
    cases hoccupied
  case listed =>
    rw [hd.active, hd.shutdown]
    exact (hactive ▸ h.listed).release

/-- The slot is empty afterwards, and shutdown not triggered by that. -/
theorem supersede_drifts (r : Registry) : ∃ shutdown, shutdown.triggered = r.shutdown.triggered
    ∧ ({ r with active := none, shutdown := shutdown } : Registry).Drifts r.supersede := by
  rw [supersede]
  split
  case h_1 a hactive => exact ⟨_, r.shutdown.triggered_forget a.tasks, release_drifts r a⟩
  case h_2 hempty => exact ⟨r.shutdown, rfl, { Drifts.refl r with active := hempty }⟩

theorem supersede_active (r : Registry) : r.supersede.active = none := by
  obtain ⟨_, -, hd⟩ := r.supersede_drifts
  exact hd.active

theorem Tidy.supersede (h : r.Tidy) : r.supersede.Tidy := by
  rw [Registry.supersede]
  split
  case h_1 a hactive => exact h.release hactive
  case h_2 => exact h

theorem current_or_ne (r : Registry) (s : Nat) :
    (∃ a, r.active = some a ∧ a.stream = s) ∨ ∀ a, r.active = some a → a.stream ≠ s := by
  cases r.active with
  | none => exact .inr nofun
  | some a =>
    by_cases hsame : a.stream = s
    · exact .inl ⟨a, rfl, hsame⟩
    · refine .inr ?_
      rintro b ⟨⟩
      exact hsame

theorem releaseIfCurrent_of_ne {s : Nat} (h : ∀ a, r.active = some a → a.stream ≠ s) :
    r.releaseIfCurrent s = (r, false) := by
  rw [releaseIfCurrent]
  split
  case h_1 a hactive => rw [if_neg (h a hactive)]
  case h_2 => rfl

theorem releaseIfCurrent_of_active (hactive : r.active = some a) :
    r.releaseIfCurrent a.stream = (release { r with active := none } a, true) := by
  simp only [releaseIfCurrent, hactive, if_true]

/-! ### Shutdown -/

theorem trigger_drifts (r : Registry) :
    ({ r with shutdown := r.shutdown.trigger.1 } : Registry).Drifts r.trigger := by
  rw [trigger, Shutdown.trigger]
  split
  · exact .refl r
  · have hcancelled := Drifts.plants (r := { r with shutdown :=
      { r.shutdown with tasks := [], triggered := true } }) (.cancel r.plant r.root)
    exact hcancelled.trans (.teardowns _ _)

theorem Tidy.relist (h : r.Tidy) {s : Shutdown Teardown} (hlisted : Listed r.active s) :
    Tidy { r with shutdown := s } where
  sessions := h.sessions
  runs := h.runs
  tended i hbound := (h.tended i hbound).carry (.refl _)
    (fun x hfound => ⟨x, hfound, .of_grows (.refl _) x⟩) rfl rfl fun _ hactive _ _ => .inl hactive
  seated := h.seated
  listed := hlisted

theorem Tidy.trigger (h : r.Tidy) : r.trigger.Tidy :=
  (h.relist h.listed.trigger).drift (trigger_drifts r)

theorem Sound.trigger (h : r.Sound) : r.trigger.Sound :=
  have hrelisted : Sound { r with shutdown := r.shutdown.trigger.1 } :=
    ⟨h.toTidy.relist h.listed.trigger, h.attended⟩
  hrelisted.drift (trigger_drifts r)

theorem addTask_drifts (r : Registry) (t : Teardown) :
    ({ r with shutdown := (r.shutdown.add t).1 } : Registry).Drifts (r.addTask t).1 := by
  simp only [addTask]
  cases (r.shutdown.add t).2.2 with
  | none => exact .refl _
  | some now => exact .teardown _ _

/-! ### The end of a run -/

/-- The registry when a driver comes to release its stream. -/
def atRelease (r : Registry) (run : Run) : Registry :=
  destroy { r with plant := r.plant.cancel run.token } run.stream

theorem atRelease_drifts (r : Registry) (run : Run) : r.Drifts (r.atRelease run) :=
  (Drifts.plants (.cancel r.plant run.token)).trans (.destroy _ run.stream)

theorem endSession_eq (r : Registry) (run : Run) : r.endSession run =
    match (r.atRelease run).releaseIfCurrent run.stream with
    | (r, true) => if r.failFast then r.trigger else r
    | (r, false) => r := rfl

theorem endSession_of_ne {run : Run} (h : ∀ a, r.active = some a → a.stream ≠ run.stream) :
    r.endSession run = r.atRelease run := by
  have helsewhere : ∀ a, (r.atRelease run).active = some a → a.stream ≠ run.stream := by
    rw [(atRelease_drifts r run).active]
    exact h
  rw [endSession_eq, releaseIfCurrent_of_ne helsewhere]

theorem endSession_of_active {run : Run} (hactive : r.active = some a)
    (hsame : a.stream = run.stream) : r.endSession run =
      if r.failFast = true then (release { r.atRelease run with active := none } a).trigger
      else release { r.atRelease run with active := none } a := by
  have hactive' := (atRelease_drifts r run).active.trans hactive
  have hfailFast := (release_drifts (r.atRelease run) a).failFast.trans
    (atRelease_drifts r run).failFast
  have hreleased := hsame ▸ releaseIfCurrent_of_active hactive'
  rw [endSession_eq, hreleased]
  simp only [hfailFast]

/-- The stream of a run that ends is not in the slot afterwards. If it was before, shutdown may be
triggered. -/
theorem endSession_drifts (r : Registry) (run : Run) : ∃ active shutdown,
    ({ r with active := active, shutdown := shutdown } : Registry).Drifts (r.endSession run)
    ∧ (∀ a, active = some a → r.active = some a ∧ a.stream ≠ run.stream)
    ∧ (shutdown.triggered = true ↔ r.shutdown.triggered = true
      ∨ r.failFast = true ∧ ∃ a, r.active = some a ∧ a.stream = run.stream) := by
  have hd := atRelease_drifts r run
  -- Only a stream that is still in the slot is released, and only that may fail fast.
  obtain ⟨a, hactive, hsame⟩ | helsewhere := r.current_or_ne run.stream
  · have hreleased := (hd.vacate.relist (Shutdown.forget · a.tasks)).trans (release_drifts _ a)
    have hcurrent : ∃ a, r.active = some a ∧ a.stream = run.stream := ⟨a, hactive, hsame⟩
    have hforgotten := r.shutdown.triggered_forget a.tasks
    rw [endSession_of_active hactive hsame]
    split
    case isTrue hfailFast =>
      have htriggered := (hreleased.relist fun s => s.trigger.1).trans (trigger_drifts _)
      exact ⟨none, _, htriggered, nofun, by simp [hcurrent, hfailFast, Shutdown.triggered_trigger]⟩
    case isFalse hfailFast =>
      exact ⟨none, _, hreleased, nofun, by simp [hforgotten, hfailFast]⟩
  · have hother : ¬ ∃ a, r.active = some a ∧ a.stream = run.stream :=
      fun ⟨a, hactive, hsame⟩ => helsewhere a hactive hsame
    rw [endSession_of_ne helsewhere]
    exact ⟨r.active, r.shutdown, hd, fun a hoccupies => ⟨hoccupies, helsewhere a hoccupies⟩,
      by simp [hother]⟩

theorem Tidy.endSession (h : r.Tidy) (run : Run) : (r.endSession run).Tidy := by
  have htidy := h.drift (atRelease_drifts r run)
  obtain ⟨a, hactive, hsame⟩ | helsewhere := r.current_or_ne run.stream
  · have hreleased := htidy.release ((atRelease_drifts r run).active.trans hactive)
    rw [endSession_of_active hactive hsame]
    split
    · exact hreleased.trigger
    · exact hreleased
  · rw [endSession_of_ne helsewhere]
    exact htidy

/-! ### What every teardown respects -/

/-- A relation that holds across what a teardown is made of holds across the whole of it. -/
structure ThroughTeardown (R : Registry → Registry → Prop) : Prop where
  trans : ∀ {r r' r'' : Registry}, R r r' → R r' r'' → R r r''
  slot : ∀ (r : Registry) (active : Option Active) (shutdown : Shutdown Teardown),
    R r { r with active := active, shutdown := shutdown }
  cancel : ∀ (r : Registry) (token : Nat), R r { r with plant := r.plant.cancel token }
  destroy : ∀ (r : Registry) (s : Nat), R r (r.destroy s)

namespace ThroughTeardown

variable {R : Registry → Registry → Prop} (h : ThroughTeardown R) (r : Registry)

include h

theorem refl : R r r := h.slot r r.active r.shutdown

theorem teardowns (ts : List Teardown) : R r (ts.foldl Registry.teardown r) := by
  induction ts generalizing r with
  | nil => exact h.refl r
  | cons t ts ih =>
    refine h.trans ?_ (ih _)
    cases t with
    | destroy s => exact h.destroy r s
    | cancel token => exact h.cancel r token

theorem trigger : R r r.trigger := by
  rw [Registry.trigger, Shutdown.trigger]
  split
  · exact h.refl r
  · have htriggered := h.slot r r.active { r.shutdown with tasks := [], triggered := true }
    exact h.trans (h.trans htriggered (h.cancel _ r.root)) (h.teardowns _ _)

theorem addTask (t : Teardown) : R r (r.addTask t).1 := by
  have hlisted := h.slot r r.active (r.shutdown.add t).1
  simp only [Registry.addTask]
  cases (r.shutdown.add t).2.2 with
  | none => exact hlisted
  | some now => exact h.trans hlisted (h.teardowns _ [now])

theorem release (a : Active) : R r (Registry.release { r with active := none } a) := by
  have hvacated := h.trans (h.slot r none r.shutdown) (h.cancel _ a.token)
  exact h.trans (h.trans hvacated (h.destroy _ a.stream)) (h.slot _ _ _)

theorem supersede : R r r.supersede := by
  rw [Registry.supersede]
  split
  · exact h.release r _
  · exact h.refl r

theorem endSession (run : Run) : R r (r.endSession run) := by
  have hended : R r (r.atRelease run) := h.trans (h.cancel r run.token) (h.destroy _ run.stream)
  obtain ⟨a, hactive, hsame⟩ | helsewhere := r.current_or_ne run.stream
  · have hreleased := h.trans hended (h.release (r.atRelease run) a)
    rw [endSession_of_active hactive hsame]
    split
    · exact h.trans hreleased (h.trigger _)
    · exact hreleased
  · rw [endSession_of_ne helsewhere]
    exact hended

end ThroughTeardown

end Registry

end Ingest

end Headend
