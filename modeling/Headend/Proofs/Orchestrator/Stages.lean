import Headend.Proofs.Orchestrator.History

/-!
# The stages of an orchestrator

An orchestrator goes from idle to registered to running to stopped, and may skip stages. `Turn` says
what an event does to the control, the state and the launch; `Staged` is what holds of them after
any history. There is one way back: a stopped orchestrator that gets its first control can be
started again.
-/

namespace Headend.Orchestrator

open Media Plant Ingest Hls

/-- The place of a state in the order of stages. -/
def State.rank : State → Nat
  | idle => 0
  | controlRegistered => 1
  | running => 2
  | stopped => 3

variable {o o' : Orchestrator} {e : Event} {es post : List Event} {w w' : Site} {name : String}

/-! ## What an event does to the stage -/

/-- Neither the stage nor the control changes, and nothing is launched. -/
structure Stays (o o' : Orchestrator) : Prop where
  state : o'.state = o.state
  control : o'.control = o.control
  launch : o'.launch = .notCalled ↔ o.launch = .notCalled

theorem Alike.stays (ha : o.Alike o') : Stays o o' := ⟨ha.state, ha.control, by rw [ha.launch]⟩

inductive Turn (o : Orchestrator) : Event → Orchestrator → Prop where
  | register {c : Control} {o' : Orchestrator} (hfree : o.control = none)
      (hcontrol : o'.control = some c) (hstate : o'.state = .controlRegistered)
      (hlaunch : o'.launch = o.launch) : Turn o (.register c true) o'
  | start {o' : Orchestrator} (hassigned : o.control ≠ none)
      (hregistered : o.state = .controlRegistered)
      (hcontrol : o'.control = o.control) (hstate : o'.state = .running)
      (hlaunch : o'.launch = .called) :
      Turn o (.start true) o'
  | stop {o' : Orchestrator} (hcontrol : o'.control = o.control) (hstate : o'.state = .stopped)
      (hlaunch : o'.launch = o.launch) : Turn o .stop o'
  | other {e : Event} {o' : Orchestrator} (hregisters : e.registers = false)
      (hstarts : e.starts = false) (hstops : e ≠ .stop) (hstays : Stays o o') : Turn o e o'

theorem Site.Deed.turn (hdeed : w.Deed e w') : Turn w.orchestrator e w'.orchestrator := by
  cases hdeed with
  | register hok =>
    obtain ⟨hfree, rfl⟩ := register_eq_ok hok
    exact .register hfree rfl rfl rfl
  | start hok =>
    obtain ⟨c, hassigned, hregistered, howes⟩ := start_eq_ok hok
    exact .start (by rw [hassigned]; exact Option.some_ne_none c) hregistered howes.alike.control
      howes.alike.state howes.alike.launch
  | stop =>
    change Turn _ _ w.orchestrator.stop
    rw [Orchestrator.stop]
    split
    case isTrue hstopped => exact .stop rfl hstopped rfl
    case isFalse =>
      obtain ⟨howes, -⟩ := trigger_owes { w.orchestrator with state := .stopped }
      exact .stop howes.alike.control howes.alike.state howes.alike.launch
  | launch hcalled hown =>
    refine .other rfl rfl (by rintro ⟨⟩) ⟨rfl, rfl, ?_⟩
    rw [hcalled]
    exact ⟨by rintro ⟨⟩, by rintro ⟨⟩⟩
  | call hnext => exact .other rfl rfl (by rintro ⟨⟩) (startProcessor_alike _ _ _).stays
  | join hrunning hspent hreturned =>
    refine .other rfl rfl (by rintro ⟨⟩) ⟨rfl, rfl, ?_⟩
    rw [hrunning]
    exact ⟨by rintro ⟨⟩, by rintro ⟨⟩⟩
  | other hregisters hstarts hstops howes =>
    exact .other hregisters hstarts hstops howes.alike.stays

/-! ## What holds at any time -/

/-- Controls accepted so far. -/
def registrations (es : List Event) : Nat := es.countP Event.registers

/-- Starts that succeeded so far. -/
def starts (es : List Event) : Nat := es.countP Event.starts

structure Staged (es : List Event) (o : Orchestrator) : Prop where
  registrations : registrations es = if o.control.isSome then 1 else 0
  starts : starts es = if o.launch = .notCalled then 0 else 1
  accepted : ∀ c, o.control = some c → .register c true ∈ es
  unassigned : o.control = none →
    o.launch = .notCalled ∧ (o.state = .idle ∧ .stop ∉ es ∨ o.state = .stopped ∧ .stop ∈ es)
  assigned : o.control ≠ none → o.state ≠ .idle
  registered : o.state = .controlRegistered → o.launch = .notCalled
  running : o.state = .running → o.launch ≠ .notCalled

theorem Staged.new (name : String) : Staged [] (Orchestrator.new name) where
  registrations := rfl
  starts := rfl
  accepted := by rintro c ⟨⟩
  unassigned _ := ⟨rfl, .inl ⟨rfl, List.not_mem_nil⟩⟩
  assigned h := absurd rfl h
  registered := by rintro ⟨⟩
  running := by rintro ⟨⟩

theorem Staged.turn (h : Staged es o) (hturn : Turn o e o') : Staged (es ++ [e]) o' := by
  cases hturn with
  | register hfree hcontrol hstate hlaunch =>
    obtain ⟨hidle, -⟩ := h.unassigned hfree
    constructor
    case registrations =>
      rw [Orchestrator.registrations, List.countP_append, ← Orchestrator.registrations,
        h.registrations, hfree, hcontrol]
      rfl
    case starts =>
      rw [Orchestrator.starts, List.countP_append, ← Orchestrator.starts, h.starts, hlaunch]
      rfl
    case accepted =>
      intro c' hown
      cases hcontrol.symm.trans hown
      exact List.mem_append_right _ (List.mem_singleton_self _)
    case unassigned => exact fun hnone => absurd (hcontrol.symm.trans hnone) (Option.some_ne_none _)
    case assigned => exact fun _ => by rw [hstate]; rintro ⟨⟩
    case registered => exact fun _ => hlaunch.trans hidle
    case running => rw [hstate]; rintro ⟨⟩
  | start hassigned hregistered hcontrol hstate hlaunch =>
    constructor
    case registrations =>
      rw [Orchestrator.registrations, List.countP_append, ← Orchestrator.registrations,
        h.registrations, hcontrol]
      rfl
    case starts =>
      rw [Orchestrator.starts, List.countP_append, ← Orchestrator.starts, h.starts,
        h.registered hregistered, hlaunch]
      rfl
    case accepted =>
      exact fun c hown => List.mem_append_left _ (h.accepted c (hcontrol.symm.trans hown))
    case unassigned => exact fun hnone => absurd (hcontrol.symm.trans hnone) hassigned
    case assigned => exact fun _ => by rw [hstate]; rintro ⟨⟩
    case registered => rw [hstate]; rintro ⟨⟩
    case running => exact fun _ => by rw [hlaunch]; rintro ⟨⟩
  | stop hcontrol hstate hlaunch =>
    constructor
    case registrations =>
      rw [Orchestrator.registrations, List.countP_append, ← Orchestrator.registrations,
        h.registrations, hcontrol]
      rfl
    case starts =>
      rw [Orchestrator.starts, List.countP_append, ← Orchestrator.starts, h.starts, hlaunch]
      rfl
    case accepted =>
      exact fun c hown => List.mem_append_left _ (h.accepted c (hcontrol.symm.trans hown))
    case unassigned =>
      intro hnone
      exact ⟨hlaunch.trans (h.unassigned (hcontrol.symm.trans hnone)).1, .inr ⟨hstate, by simp⟩⟩
    case assigned => exact fun _ => by rw [hstate]; rintro ⟨⟩
    case registered => rw [hstate]; rintro ⟨⟩
    case running => rw [hstate]; rintro ⟨⟩
  | other hregisters hstarts hstops hstays =>
    obtain ⟨hstate, hcontrol, hlaunch⟩ := hstays
    constructor
    case registrations =>
      rw [Orchestrator.registrations, List.countP_append, ← Orchestrator.registrations,
        h.registrations, hcontrol, List.countP_singleton, hregisters]
      rfl
    case starts =>
      rw [Orchestrator.starts, List.countP_append, ← Orchestrator.starts, h.starts,
        List.countP_singleton, hstarts]
      simp only [hlaunch]
      rfl
    case accepted =>
      exact fun c hown => List.mem_append_left _ (h.accepted c (hcontrol.symm.trans hown))
    case unassigned =>
      intro hnone
      obtain ⟨hidle, hstage⟩ := h.unassigned (hcontrol.symm.trans hnone)
      refine ⟨hlaunch.mpr hidle, ?_⟩
      rw [hstate]
      exact hstage.imp (And.imp_right fun hfresh => by simp [hfresh, hstops.symm])
        (And.imp_right (List.mem_append_left _))
    case assigned => rw [hstate, hcontrol]; exact h.assigned
    case registered => rw [hstate, hlaunch]; exact h.registered
    case running => rw [hstate]; exact fun hrunning => hlaunch.not.mpr (h.running hrunning)

theorem Staged.play {pre : List Event} (h : Staged pre w.orchestrator)
    (hplayed : w.play es = some w') :
    Staged (pre ++ es) w'.orchestrator := by
  induction es generalizing w pre with
  | nil => exact Option.some.inj hplayed ▸ (List.append_nil pre).symm ▸ h
  | cons e es ih =>
    obtain ⟨next, hadvanced, hrest⟩ := Option.bind_eq_some_iff.mp hplayed
    have hall := ih (h.turn ((Site.advance_deed hadvanced).turn)) hrest
    rwa [List.append_assoc] at hall

theorem staged_of_play (hplayed : (Site.new name).play es = some w) : Staged es w.orchestrator :=
  (Staged.new name).play (w := .new name) hplayed

/-! ## Forward, with one way back -/

/-- An event takes the orchestrator back iff it is the first control for a stopped one. -/
theorem Staged.back_iff (h : Staged es o) (hturn : Turn o e o') :
    o'.state.rank < o.state.rank ↔ e.registers = true ∧ .stop ∈ es := by
  cases hturn with
  | register hfree hcontrol hstate hlaunch =>
    rw [hstate]
    obtain ⟨-, ⟨hidle, hfresh⟩ | ⟨hstopped, hbefore⟩⟩ := h.unassigned hfree
    · rw [hidle]
      exact iff_of_false (by decide) fun hback => hfresh hback.2
    · rw [hstopped]
      exact iff_of_true (by decide) ⟨rfl, hbefore⟩
  | start hassigned hregistered hcontrol hstate hlaunch =>
    rw [hstate, hregistered]
    exact iff_of_false (by decide) fun hback => Bool.false_ne_true hback.1
  | stop hcontrol hstate hlaunch =>
    rw [hstate]
    refine iff_of_false ?_ fun hback => Bool.false_ne_true hback.1
    cases o.state <;> decide
  | other hregisters hstarts hstops hstays =>
    rw [hstays.state]
    refine iff_of_false (Nat.lt_irrefl _) fun hback => ?_
    exact Bool.false_ne_true (hregisters.symm.trans hback.1)

/-- Without a new control, a stopped orchestrator stays so and starts nothing. -/
theorem stopped_stays (hstopped : w.orchestrator.state = .stopped)
    (hunregistered : ∀ e ∈ es, e.registers = false) (hplayed : w.play es = some w') :
    w'.orchestrator.state = .stopped ∧ (∀ e ∈ es, e.starts = false) ∧
      (w'.orchestrator.launch = .notCalled ↔ w.orchestrator.launch = .notCalled) := by
  induction es generalizing w with
  | nil =>
    cases hplayed
    exact ⟨hstopped, fun e hmem => absurd hmem List.not_mem_nil, .rfl⟩
  | cons e es ih =>
    obtain ⟨next, hadvanced, hrest⟩ := Option.bind_eq_some_iff.mp hplayed
    have hhere := hunregistered e List.mem_cons_self
    have hturn := (Site.advance_deed hadvanced).turn
    have hstill : next.orchestrator.state = .stopped ∧ e.starts = false ∧
        (next.orchestrator.launch = .notCalled ↔ w.orchestrator.launch = .notCalled) := by
      cases hturn with
      | register => cases hhere
      | start hassigned hregistered => cases hregistered.symm.trans hstopped
      | stop hcontrol hstate hlaunch => exact ⟨hstate, rfl, by rw [hlaunch]⟩
      | other hregisters hstarts hstops hstays =>
        exact ⟨hstays.state.trans hstopped, hstarts, hstays.launch⟩
    obtain ⟨hstate, hquiet, hlaunch⟩ := hstill
    obtain ⟨hstate', hquiet', hlaunch'⟩ := ih hstate
      (fun e hmem => hunregistered e (List.mem_cons_of_mem _ hmem)) hrest
    refine ⟨hstate', ?_, hlaunch'.trans hlaunch⟩
    intro e' hmem
    obtain rfl | hlater := List.mem_cons.mp hmem
    · exact hquiet
    · exact hquiet' e' hlater

/-- At most one control is accepted and at most one start succeeds, and that launches the
processors. The state only moves forward, but for the first control of a stopped orchestrator;
unless that comes, stopped is the end. -/
theorem stages_forward (hplayed : (Site.new name).play es = some w) :
    registrations es ≤ 1 ∧ starts es ≤ 1 ∧
    (w.orchestrator.launch ≠ .notCalled ↔ starts es = 1) ∧
    (∀ pre e post before after, es = pre ++ e :: post → (Site.new name).play pre = some before →
      before.advance e = some after →
        (after.orchestrator.state.rank < before.orchestrator.state.rank ↔
          e.registers = true ∧ .stop ∈ pre)) ∧
    (∀ pre post, es = pre ++ .stop :: post → registrations post = 0 →
      w.orchestrator.state = .stopped ∧ starts post = 0) := by
  have h := staged_of_play hplayed
  refine ⟨?_, ?_, ?_, ?_, ?_⟩
  · rw [h.registrations]
    split <;> decide
  · rw [h.starts]
    split <;> decide
  · rw [h.starts]
    split <;> simp_all
  · intro pre e post before after _ hreached hadvanced
    exact (staged_of_play hreached).back_iff ((Site.advance_deed hadvanced).turn)
  · rintro pre post rfl hunregistered
    obtain ⟨before, hreached, hrest⟩ := Site.play_split hplayed
    obtain ⟨after, hadvanced, hrest⟩ := Option.bind_eq_some_iff.mp hrest
    have hstopped : after.orchestrator.state = .stopped := by
      cases (Site.advance_deed hadvanced).turn with
      | stop hcontrol hstate hlaunch => exact hstate
      | other hregisters hstarts hstops hstays => exact absurd rfl hstops
    have hquiet : ∀ e ∈ post, e.registers = false := fun e hmem =>
      Bool.eq_false_iff.mpr (List.countP_eq_zero.mp hunregistered e hmem)
    obtain ⟨hstate, hunstarted, -⟩ := stopped_stays hstopped hquiet hrest
    exact ⟨hstate, List.countP_eq_zero.mpr fun e hmem => Bool.eq_false_iff.mp (hunstarted e hmem)⟩

theorem stages_forward_to_stop : ∃ w,
    (Site.new "live").play [.register ⟨[.consume], none⟩ true, .start true, .launch, .call, .stop,
      .register ⟨[.stall], none⟩ false, .start false, .stop] = some w ∧
    w.orchestrator.state = .stopped ∧ w.orchestrator.launch ≠ .notCalled := by
  obtain ⟨w, hplayed⟩ := Option.isSome_iff_exists.mp (show ((Site.new "live").play [
    .register ⟨[.consume], none⟩ true, .start true, .launch, .call, .stop,
    .register ⟨[.stall], none⟩ false, .start false, .stop]).isSome = true by rfl)
  obtain ⟨-, -, hlaunched, -, hended⟩ := stages_forward hplayed
  obtain ⟨hstopped, -⟩ := hended [_, _, _, _] [_, _, _] rfl rfl
  exact ⟨w, hplayed, hstopped, hlaunched.mpr rfl⟩

/-- A stopped orchestrator gets its first control, and starts it. -/
theorem stopped_starts : ∃ w,
    (Site.new "live").play [.stop, .register ⟨[.consume], none⟩ true, .start true, .launch, .call]
      = some w ∧
    w.orchestrator.state = .running ∧ w.orchestrator.plant.consumers.length = 1 :=
  ⟨_, rfl, rfl, rfl⟩

end Headend.Orchestrator
