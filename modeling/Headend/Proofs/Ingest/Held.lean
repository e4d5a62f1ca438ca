import Headend.Proofs.Ingest.History

/-!
# The stream in the slot

Whatever happens to a registry, at most one of its streams is alive, and that one is in the slot.
When nothing can move any more, a stream in the slot is alive.
-/

namespace Headend

namespace Plant

variable {p : Plant} {consumer token : Nat}

/-- A consumer at rest whose token is cancelled has returned. -/
theorem Works.returned (hworks : p.Works consumer token)
    (hrest : p.step (.consumer consumer) = none)
    (hcancelled : p.tokens.cancelled token = true) :
    (p.consumers[consumer]?).all Consumer.hasReturned = true := by
  obtain ⟨c, hfound, hown⟩ := hworks
  rw [hfound, Option.all_some]
  exact Consumer.returned_of_rest hfound hrest (hown ▸ hcancelled)

end Plant

namespace Ingest.Registry

open Plant

variable {r r' : Registry} {a : Active} {es : List Event} {failFast : Bool} {x : Stream}
  {run : Run} {k session : Nat}

/-! ## Registries at rest -/

/-- Only a task of the registry can move. -/
theorem mem_tasks {t : Task} (h : r.step t = some r') : t ∈ r.tasks := by
  cases t with
  | plant t =>
    obtain ⟨p, hstepped, -⟩ := Option.map_eq_some_iff.mp h
    have hmem := List.mem_map_of_mem (f := Task.plant) (Plant.mem_tasks hstepped)
    exact List.mem_append_left _ (List.mem_append_left _ hmem)
  | piping k =>
    obtain ⟨piping, hfound, -⟩ := Option.bind_eq_some_iff.mp h
    have hbound := List.mem_range.mpr (List.getElem?_eq_some_iff.mp hfound).1
    exact List.mem_append_left _ (List.mem_append_right _ (List.mem_map_of_mem hbound))
  | run k =>
    obtain ⟨run, hfound, -⟩ := Option.bind_eq_some_iff.mp h
    have hbound := List.mem_range.mpr (List.getElem?_eq_some_iff.mp hfound).1
    exact List.mem_append_right _ (List.mem_map_of_mem hbound)

theorem settled_iff (r : Registry) : r.Settled ↔ ∀ t ∈ r.tasks, (r.step t).isNone = true := by
  constructor
  · intro hsettled t _
    rw [hsettled t, Option.isNone_none]
  · intro hstuck t
    cases h : r.step t with
    | none => rfl
    | some r' =>
      have hnone := hstuck t (mem_tasks h)
      rw [h] at hnone
      cases hnone

instance (r : Registry) : Decidable r.Settled := decidable_of_iff _ r.settled_iff.symm

theorem processorsReturned_of_works (hstream : r.streams[k]? = some x)
    (hworks : ∀ c ∈ x.consumers, r.plant.Works c session) (hsettled : r.Settled)
    (hcancelled : r.plant.tokens.cancelled session = true) : r.processorsReturned k = true := by
  have hrest (t : Plant.Task) : r.plant.step t = none :=
    Option.map_eq_none_iff.mp (hsettled (.plant t))
  simp only [processorsReturned, hstream, Option.elim_some, List.all_eq_true]
  intro q hmem
  cases hconsumer : q.consumer with
  | none => rfl
  | some c =>
    have hmem : c ∈ x.consumers := List.mem_filterMap.mpr ⟨q, hmem, hconsumer⟩
    exact (hworks c hmem).returned (hrest _) hcancelled

/-- A run at rest has returned, or it waits for its token. -/
theorem Tends.waits {i token : Nat} (ht : r.Tends i token x run) (hsettled : r.Settled)
    (hunfinished : run.phase ≠ .returned) :
    ∃ session, Serves r.plant token x session ∧ r.plant.tokens.cancelled session = false := by
  have hrest : r.stepRun i = none := hsettled (.run i)
  have hstream : r.streams[run.stream]? = some x := ht.driven.stream ▸ ht.stream
  cases hphase : run.phase with
  | returned => exact absurd hphase hunfinished
  | called =>
    -- It can start, or it is refused.
    cases hreaders : x.readers <;> simp [stepRun, ht.drive, hstream, hphase, hreaders] at hrest
  | running =>
    obtain ⟨session, hown, hserves⟩ := ht.driven.running hphase
    refine ⟨session, hserves, Bool.eq_false_iff.mpr fun hcancelled => ?_⟩
    have hreturned := processorsReturned_of_works hstream hserves.works hsettled hcancelled
    simp [stepRun, ht.drive, hstream, hphase, hown, hcancelled, hreturned] at hrest

theorem Sound.alive (h : r.Sound) (hsettled : r.Settled) (hactive : r.active = some a) :
    (∃ x, r.streams[a.stream]? = some x ∧ x.destroyed = false)
      ∧ r.plant.tokens.cancelled a.token = false := by
  obtain ⟨token, x, run, ht⟩ := h.tended a.stream (h.lt hactive)
  obtain ⟨-, rfl⟩ := Session.mk.inj (Option.some.inj ((h.seated a hactive).symm.trans ht.session))
  obtain ⟨session, hserves, hwaits⟩ := ht.waits hsettled (h.attended a run hactive ht.drive)
  have hlinks (k : Nat) : r.plant.step (.link k) = none :=
    Option.map_eq_none_iff.mp (hsettled (.plant (.link k)))
  -- Whatever ends the session or its stream would have reached the token that the run waits for.
  have huncaused := mt (hserves.cancelled hlinks) (Bool.eq_false_iff.mp hwaits)
  rw [not_or] at huncaused
  refine ⟨⟨x, ht.stream, Bool.eq_false_iff.mpr fun hgone => huncaused.2 ?_⟩,
    Bool.eq_false_iff.mpr huncaused.1⟩
  exact Tokens.cancelled_of_fired (ht.driven.sealed.destroyed hgone)

/-! ## In every state -/

/-- The only stream alive is the one in the slot: any other is destroyed, and the token of its
session is cancelled. Two tasks are registered for the stream in the slot until the shutdown is
triggered, and a session that is allocated nothing leaves the slot empty. Once everything has
settled, the stream in the slot is alive and its token is not cancelled. -/
theorem live_stream_held (hplayed : (new failFast).play es = some r) :
    (∀ s x, r.streams[s]? = some x → x.destroyed = false → ∃ a, r.active = some a ∧ a.stream = s)
    ∧ (∀ s x, r.streams[s]? = some x → (∀ a, r.active = some a → a.stream ≠ s) →
      x.destroyed = true
        ∧ ∃ token, r.sessions[s]? = some ⟨s, token⟩ ∧ r.plant.tokens.cancelled token = true)
    ∧ (∀ a, r.active = some a → r.sessions[a.stream]? = some ⟨a.stream, a.token⟩)
    ∧ r.shutdown.pending
        = (if r.shutdown.triggered then 0 else if r.active.isSome then 2 else 0)
    ∧ (∀ parent reason, (r.startSession parent (.error reason)).1.active = none)
    ∧ (r.Settled → ∀ a, r.active = some a →
      (∃ x, r.streams[a.stream]? = some x ∧ x.destroyed = false)
        ∧ r.plant.tokens.cancelled a.token = false) := by
  have hsound := (Sound.new failFast).play hplayed
  have hleft (s : Nat) (x : Stream) (hfound : r.streams[s]? = some x)
      (helsewhere : ∀ a, r.active = some a → a.stream ≠ s) : x.destroyed = true
        ∧ ∃ token, r.sessions[s]? = some ⟨s, token⟩ ∧ r.plant.tokens.cancelled token = true := by
    obtain ⟨token, y, run, ht⟩ := hsound.tended s (List.getElem?_eq_some_iff.mp hfound).1
    obtain rfl := Option.some.inj (hfound.symm.trans ht.stream)
    obtain ⟨tasks, hactive⟩ | ⟨hgone, hfired⟩ := ht.place
    · exact absurd rfl (helsewhere _ hactive)
    · exact ⟨hgone, token, ht.session, Tokens.cancelled_of_fired hfired⟩
  refine ⟨?_, hleft, hsound.seated, hsound.listed.pending, ?_, ?_⟩
  · intro s x hfound hlive
    obtain hcurrent | helsewhere := r.current_or_ne s
    · exact hcurrent
    · rw [(hleft s x hfound helsewhere).1] at hlive
      cases hlive
  · intro parent reason
    exact r.supersede_active
  · intro hsettled a hactive
    exact hsound.alive hsettled hactive

/-- A session at work loses the slot to one that gets no stream, then another one takes it. -/
def takeover : List Event :=
  [.token none, .start 1 (.ok [.consume]), .step (.run 0), .step (.plant (.consumer 0)),
    .start 1 (.error "no pipes"), .start 1 (.ok [.consume, .stall]), .step (.run 1),
    .step (.plant (.link 0)), .step (.plant (.consumer 0)), .step (.run 0),
    .step (.plant (.consumer 1)), .step (.plant (.consumer 2))]

theorem live_stream_held_after_takeover :
    ∃ r, (new true).play takeover = some r ∧ r.Settled ∧ r.active = some ⟨1, 6, [2, 3]⟩
      ∧ r.shutdown.pending = 2
      ∧ (∃ x, r.streams[0]? = some x ∧ x.destroyed = true)
      ∧ (∃ x, r.streams[1]? = some x ∧ x.destroyed = false)
      ∧ r.plant.tokens.cancelled 6 = false := by
  obtain ⟨r, hplayed⟩ := Option.isSome_iff_exists.mp
    (by decide +kernel : ((new true).play takeover).isSome = true)
  have hfacts : ((new true).play takeover).all fun r =>
      r.Settled ∧ r.active = some ⟨1, 6, [2, 3]⟩ ∧ r.shutdown.triggered = false
        ∧ (r.streams[0]?).isSome = true := by decide +kernel
  rw [hplayed, Option.all_some, decide_eq_true_eq] at hfacts
  obtain ⟨hsettled, hactive, huntouched, hallocated⟩ := hfacts
  obtain ⟨x, hfirst⟩ := Option.isSome_iff_exists.mp hallocated
  obtain ⟨-, hleft, -, hpending, -, halive⟩ := live_stream_held hplayed
  obtain ⟨hlive, huncancelled⟩ := halive hsettled _ hactive
  refine ⟨r, hplayed, hsettled, hactive, ?_, ⟨_, hfirst, ?_⟩, hlive, huncancelled⟩
  · rw [hpending, huntouched, hactive]
    rfl
  · refine (hleft 0 _ hfirst fun a hoccupies => ?_).1
    rw [hactive] at hoccupies
    cases hoccupies
    decide

end Ingest.Registry

end Headend
