import Mathlib.Data.List.Induction
import Headend.Ingest.Handoff
import Headend.Proofs.Runs

/-!
# Tracks handed over from all sides

Handlers are called after the handoff has answered, so that tracks may arrive while others are on
their way. A call that has its answer is an `Errand`, with the tracks it has yet to hand over:
the one that arrived, or all the early ones. `Traffic` is a handoff with the errands of all callers
and the handler calls made so far. Any errand may make its next call at any time; callers that do
one thing after the other are a special case.

What is early, on its way and handed over is always a permutation of what has arrived.
-/

namespace Headend.Ingest.Handoff

variable {τ η : Type}

structure Errand (τ η : Type) where
  handler : η
  tracks : List τ
  deriving Repr, DecidableEq

/-- A call of a handler, with the place of the errand it was made on. -/
structure Handover (τ η : Type) where
  errand : Nat
  handler : η
  track : τ
  deriving Repr, DecidableEq

inductive Event (τ η : Type) where
  | arrive (track : τ)
  | attach (handler : η)
  /-- The errand at this place hands over its next track. -/
  | pass (errand : Nat)
  deriving Repr, DecidableEq

namespace Event

def track? : Event τ η → Option τ
  | arrive track => some track
  | _ => none

def attaches : Event τ η → Bool
  | attach _ => true
  | _ => false

end Event

/-- The tracks that arrive in the course of a history. -/
def arrivals (es : List (Event τ η)) : List τ := es.filterMap Event.track?

theorem arrivals_append (es es' : List (Event τ η)) :
    arrivals (es ++ es') = arrivals es ++ arrivals es' :=
  List.filterMap_append

@[simp] theorem arrivals_arrive (track : τ) : arrivals [(.arrive track : Event τ η)] = [track] :=
  rfl

@[simp] theorem arrivals_attach (handler : η) : arrivals [(.attach handler : Event τ η)] = [] :=
  rfl

@[simp] theorem arrivals_pass (k : Nat) : arrivals [(.pass k : Event τ η)] = [] := rfl

structure Traffic (τ η : Type) where
  handoff : Handoff τ η
  /-- In the order in which they were begun. -/
  errands : List (Errand τ η)
  log : List (Handover τ η)
  deriving Repr, DecidableEq

namespace Traffic

def new : Traffic τ η := ⟨.new, [], []⟩

/-- The traffic after an event, if it can happen. -/
def advance (s : Traffic τ η) : Event τ η → Option (Traffic τ η)
  | .arrive track =>
    match s.handoff.arrive track with
    | (h, none) => some { s with handoff := h }
    | (h, some handler) =>
      some { s with handoff := h, errands := s.errands ++ [⟨handler, [track]⟩] }
  | .attach handler =>
    let (h, early) := s.handoff.attach handler
    some { s with handoff := h, errands := s.errands ++ [⟨handler, early⟩] }
  | .pass k =>
    match s.errands[k]? with
    | some ⟨handler, track :: rest⟩ =>
      some { s with
        errands := s.errands.set k ⟨handler, rest⟩
        log := s.log ++ [⟨k, handler, track⟩] }
    | _ => none

def play (s : Traffic τ η) (es : List (Event τ η)) : Option (Traffic τ η) := es.foldlM advance s

/-- All calls have finished. -/
def Settled (s : Traffic τ η) : Prop := ∀ k, s.advance (.pass k) = none

/-- The tracks that are on their way, errand by errand. -/
def due (s : Traffic τ η) : List τ := s.errands.flatMap Errand.tracks

/-- The tracks handed over, in the order of the handler calls. -/
def passed (s : Traffic τ η) : List τ := s.log.map Handover.track

/-- The tracks handed over on one errand. -/
def passedOn (s : Traffic τ η) (k : Nat) : List τ :=
  (s.log.filter (·.errand = k)).map Handover.track

variable {s s' : Traffic τ η} {e : Event τ η} {es : List (Event τ η)} {handler : η}
  {early : List τ}

theorem play_snoc (hplayed : s.play (es ++ [e]) = some s') :
    ∃ last, s.play es = some last ∧ last.advance e = some s' :=
  Runs.foldlM_concat_eq_some.mp hplayed

/-! ## What an event does -/

/-- The events that can happen, and what they make of the traffic. -/
inductive Happens (s : Traffic τ η) : Event τ η → Traffic τ η → Prop where
  | keep {track : τ} (hunattached : s.handoff.handler = none) : Happens s (.arrive track)
      { s with handoff := { s.handoff with early := s.handoff.early ++ [track] } }
  | send {track : τ} {handler : η} (hattached : s.handoff.handler = some handler) :
      Happens s (.arrive track) { s with errands := s.errands ++ [⟨handler, [track]⟩] }
  | attach {handler : η} : Happens s (.attach handler)
      { s with
        handoff := ⟨some handler, []⟩
        errands := s.errands ++ [⟨handler, s.handoff.early⟩] }
  | pass {k : Nat} {handler : η} {track : τ} {rest : List τ}
      (hnext : s.errands[k]? = some ⟨handler, track :: rest⟩) : Happens s (.pass k)
      { s with
        errands := s.errands.set k ⟨handler, rest⟩
        log := s.log ++ [⟨k, handler, track⟩] }

theorem advance_happens (h : s.advance e = some s') : s.Happens e s' := by
  cases e with
  | arrive track =>
    rw [advance, arrive] at h
    cases hattached : s.handoff.handler with
    | none =>
      simp only [hattached] at h
      exact Option.some.inj h ▸ hattached ▸ .keep hattached
    | some handler =>
      simp only [hattached] at h
      exact Option.some.inj h ▸ .send hattached
  | attach handler => exact Option.some.inj h ▸ .attach
  | pass k =>
    rw [advance] at h
    split at h
    case h_1 handler track rest hnext => exact Option.some.inj h ▸ .pass hnext
    case h_2 => cases h

theorem settled_iff (s : Traffic τ η) : s.Settled ↔ ∀ e ∈ s.errands, e.tracks = [] := by
  constructor
  · intro hsettled e hmem
    obtain ⟨k, hfound⟩ := List.mem_iff_getElem?.mp hmem
    obtain ⟨handler, _ | ⟨track, rest⟩⟩ := e
    · rfl
    · have hidle := hsettled k
      rw [advance, hfound] at hidle
      cases hidle
  · intro hspent k
    cases hnext : s.advance (.pass k) with
    | none => rfl
    | some s' =>
      cases advance_happens hnext with
      | pass hcalled => cases hspent _ (List.mem_of_getElem? hcalled)

theorem due_of_settled (hsettled : s.Settled) : s.due = [] :=
  List.flatMap_eq_nil_iff.mpr ((settled_iff s).mp hsettled)

/-! ## Nothing is lost or doubled -/

theorem flatMap_set_perm {errands : List (Errand τ η)} {k : Nat} {track : τ} {rest : List τ}
    (hnext : errands[k]? = some ⟨handler, track :: rest⟩) :
    (errands.flatMap Errand.tracks).Perm
      (track :: (errands.set k ⟨handler, rest⟩).flatMap Errand.tracks) := by
  induction errands generalizing k with
  | nil => cases hnext
  | cons e errands ih =>
    cases k with
    | zero =>
      cases Option.some.inj hnext
      exact .refl _
    | succ k => exact ((ih hnext).append_left e.tracks).trans List.perm_middle

theorem Happens.perm (h : s.Happens e s') :
    (s'.passed ++ s'.due ++ s'.handoff.early).Perm
      (s.passed ++ s.due ++ s.handoff.early ++ arrivals [e]) := by
  cases h with
  | keep => simp [passed, due]
  | send =>
    simp only [passed, due, arrivals_arrive, List.flatMap_append, List.flatMap_singleton,
      List.append_assoc]
    exact (List.perm_append_comm.append_left _).append_left _
  | attach => simp [passed, due]
  | pass hnext =>
    have hmoved := flatMap_set_perm hnext
    simp only [passed, due, arrivals_pass, List.map_append, List.map_singleton, List.append_assoc,
      List.append_nil]
    exact ((hmoved.append_right _).append_left _).symm

theorem perm_of_play (hrun : new.play es = some s) :
    (s.passed ++ s.due ++ s.handoff.early).Perm (arrivals es) := by
  induction es using List.reverseRecOn generalizing s with
  | nil =>
    cases hrun
    exact .refl _
  | append_singleton es e ih =>
    obtain ⟨last, hbefore, hnext⟩ := play_snoc hrun
    rw [arrivals_append]
    exact (advance_happens hnext).perm.trans ((ih hbefore).append_right _)

/-- All errands can be done, whatever is on its way. -/
theorem exists_settled (s : Traffic τ η) :
    ∃ (ks : List Nat) (s' : Traffic τ η), s.play (ks.map .pass) = some s' ∧ s'.Settled := by
  induction hleft : s.due.length generalizing s with
  | zero =>
    refine ⟨[], s, rfl, (settled_iff s).mpr ?_⟩
    exact List.flatMap_eq_nil_iff.mp (List.eq_nil_of_length_eq_zero hleft)
  | succ n ih =>
    have hbusy : ¬ s.Settled := by
      intro hsettled
      rw [due_of_settled hsettled] at hleft
      cases hleft
    obtain ⟨k, hcan⟩ := Classical.not_forall.mp hbusy
    obtain ⟨next, hadvanced⟩ := Option.ne_none_iff_exists'.mp hcan
    have hfewer : next.due.length = n := by
      cases advance_happens hadvanced with
      | pass hfound =>
        have hmoved := (flatMap_set_perm hfound).length_eq
        simp only [due, List.length_cons] at hleft hmoved ⊢
        omega
    obtain ⟨ks, s', hplayed, hsettled⟩ := ih next hfewer
    exact ⟨k :: ks, s', Runs.foldlM_cons_eq_some.mpr ⟨next, hadvanced, hplayed⟩, hsettled⟩

/-! ## One handler -/

/-- Until a handler is attached, all that arrives is early. -/
theorem unattached_of_play (hquiet : ∀ e ∈ es, e.attaches = false) (hrun : new.play es = some s) :
    s = ⟨⟨none, arrivals es⟩, [], []⟩ := by
  induction es using List.reverseRecOn generalizing s with
  | nil =>
    cases hrun
    rfl
  | append_singleton es e ih =>
    obtain ⟨last, hbefore, hnext⟩ := play_snoc hrun
    cases ih (fun e hmem => hquiet e (by simp [hmem])) hbefore
    cases advance_happens hnext with
    | keep => rw [arrivals_append, arrivals_arrive]
    | send hattached => cases hattached
    | attach => cases hquiet _ (List.mem_append_right _ List.mem_cons_self)
    | pass hnext => cases hnext

/-- A handler is attached, and the first errand is to hand over what was early. -/
structure Attached (s : Traffic τ η) (handler : η) (early : List τ) : Prop where
  handoff : s.handoff = ⟨some handler, []⟩
  errands : ∀ e ∈ s.errands, e.handler = handler
  log : ∀ call ∈ s.log, call.handler = handler
  replay : ∃ e, s.errands[0]? = some e ∧ s.passedOn 0 ++ e.tracks = early

namespace Attached

theorem advance (h : s.Attached handler early) (hother : e.attaches = false)
    (hnext : s.advance e = some s') : s'.Attached handler early := by
  obtain ⟨first, hfound, hsplit⟩ := h.replay
  cases advance_happens hnext with
  | keep hunattached =>
    rw [h.handoff] at hunattached
    cases hunattached
  | send hattached =>
    rw [h.handoff] at hattached
    cases hattached
    refine ⟨h.handoff, ?_, h.log, first, ?_, hsplit⟩
    · exact List.forall_mem_append.mpr ⟨h.errands, List.forall_mem_singleton.mpr rfl⟩
    · exact List.getElem?_append_left (List.getElem?_eq_some_iff.mp hfound).1 ▸ hfound
  | attach => cases hother
  | @pass k own track rest hcalled =>
    have hsame : own = handler := h.errands _ (List.mem_of_getElem? hcalled)
    refine ⟨h.handoff, ?_, ?_, ?_⟩
    · intro e hmem
      obtain hmem | rfl := List.mem_or_eq_of_mem_set hmem
      · exact h.errands e hmem
      · exact hsame
    · exact List.forall_mem_append.mpr ⟨h.log, List.forall_mem_singleton.mpr hsame⟩
    · by_cases hzero : k = 0
      · cases hzero
        cases Option.some.inj (hfound.symm.trans hcalled)
        refine ⟨⟨own, rest⟩, ?_, ?_⟩
        · exact List.getElem?_set_self (List.getElem?_eq_some_iff.mp hfound).1
        · simpa [passedOn] using hsplit
      · refine ⟨first, ?_, ?_⟩
        · exact (List.getElem?_set_ne hzero).trans hfound
        · simpa [passedOn, hzero] using hsplit

theorem play (h : s.Attached handler early) (hothers : ∀ e ∈ es, e.attaches = false)
    (hrun : s.play es = some s') : s'.Attached handler early :=
  Runs.foldlM_invariant (P := fun s => s.Attached handler early)
    (fun hmem h => h.advance (hothers _ hmem)) h hrun

end Attached

theorem attached_of_play {before after : List (Event τ η)}
    (hquiet : ∀ e ∈ before ++ after, e.attaches = false)
    (hrun : new.play (before ++ .attach handler :: after) = some s) :
    s.Attached handler (arrivals before) := by
  obtain ⟨hquiet, hothers⟩ := List.forall_mem_append.mp hquiet
  obtain ⟨s₁, hearly, hrun⟩ := Runs.foldlM_append_eq_some.mp hrun
  cases unattached_of_play hquiet hearly
  refine Attached.play ?_ hothers hrun
  exact ⟨rfl, List.forall_mem_singleton.mpr rfl, nofun, _, rfl, rfl⟩

/-- Without a handler all tracks are kept, in order. With one handler, attached at any time, nothing
is kept any more, every call goes to it, the early tracks are handed over in order, and once all
calls have finished, which can always be brought about, every track was handed over just once. -/
theorem handed_over_once (hrun : new.play es = some s) :
    ((∀ e ∈ es, e.attaches = false) → s.passed = [] ∧ s.handoff.early = arrivals es) ∧
    ∀ before after handler, es = before ++ .attach handler :: after →
      (∀ e ∈ before ++ after, e.attaches = false) →
      s.handoff.early = [] ∧
      (∀ call ∈ s.log, call.handler = handler) ∧
      s.passedOn 0 <+: arrivals before ∧
      (s.passed ++ s.due).Perm (arrivals es) ∧
      (s.Settled → s.passedOn 0 = arrivals before ∧ s.passed.Perm (arrivals es)) ∧
      ∃ (ks : List Nat) (s' : Traffic τ η), s.play (ks.map .pass) = some s' ∧ s'.Settled := by
  constructor
  · intro hquiet
    cases unattached_of_play hquiet hrun
    exact ⟨rfl, rfl⟩
  · rintro before after handler rfl hquiet
    have hattached := attached_of_play hquiet hrun
    have hall := perm_of_play hrun
    obtain ⟨first, hfound, hsplit⟩ := hattached.replay
    rw [hattached.handoff, List.append_nil] at hall
    refine ⟨by rw [hattached.handoff], hattached.log, ⟨_, hsplit⟩, hall, fun hsettled => ⟨?_, ?_⟩,
      s.exists_settled⟩
    · rw [← hsplit, (settled_iff s).mp hsettled first (List.mem_of_getElem? hfound),
        List.append_nil]
    · rwa [due_of_settled hsettled, List.append_nil] at hall

/-- A track overtakes the replay of two early ones. -/
theorem handed_over_once_overtaken :
    ∃ s : Traffic Nat Unit, new.play [.arrive 1, .arrive 2, .attach (), .pass 0, .arrive 3, .pass 1,
      .pass 0] = some s ∧ s.passed = [1, 3, 2] ∧ s.passedOn 0 = [1, 2] ∧
      s.passed.Perm [1, 2, 3] := by
  have hrun : new.play [.arrive 1, .arrive 2, .attach (), .pass 0, .arrive 3, .pass 1, .pass 0]
      = some (⟨⟨some (), []⟩, [⟨(), []⟩, ⟨(), []⟩], [⟨0, (), 1⟩, ⟨1, (), 3⟩, ⟨0, (), 2⟩]⟩ :
        Traffic Nat Unit) := rfl
  have honce := (handed_over_once hrun).2 [.arrive 1, .arrive 2] _ () rfl (by decide)
  obtain ⟨-, -, -, -, hfinished, -⟩ := honce
  exact ⟨_, hrun, rfl, hfinished ((settled_iff _).mpr (by decide))⟩

end Traffic

end Headend.Ingest.Handoff
