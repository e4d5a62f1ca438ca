import Headend.Proofs.Ingest.History
import Headend.Proofs.Orchestrator.Teardown

/-!
# Histories of an orchestrator

An `Event` is a call that somebody makes, with its outcome, or a step of a task. The launch is
played piece by piece, so that anything may happen between one processor being called and the next:
`Site` is an orchestrator with the processors that the launch has yet to call. What `stepLaunch`
does in one step is one such history (`stepLaunch_plays`).
-/

namespace Headend.Orchestrator

open Media Plant Ingest Hls

/-! ## What goes on in the plant -/

/-- What tasks do, and those who hold tokens, pipes and tracks. -/
inductive Stir where
  | step (t : Plant.Task)
  /-- A processor returns on its own. -/
  | exit (consumer : Nat)
  | read (pipe size : Nat)
  | hangUp (pipe : Nat)
  | track (codec : Codec) (token : Nat) (source : Source) (republish : Bool) (target : Option Nat)
  | token (parent : Option Nat)
  | cancel (token : Nat)

/-- The plant afterwards, if that can happen. -/
def stir (p : Plant) : Stir → Option Plant
  | .step t => p.step t
  | .exit k => p.exit k
  | .read pipe size => Registry.read p pipe size
  | .hangUp pipe => some (p.updatePipe pipe Pipe.dropReader)
  | .track codec token source republish target =>
    some (p.pipeTrack codec token source republish target).1
  | .token none => some p.freshToken.1
  | .token (some parent) => some (p.childToken parent).1
  | .cancel token => some (p.cancel token)

theorem stir_extends {p p' : Plant} {s : Stir} (h : stir p s = some p') : p.Extends p' := by
  cases s with
  | step t => exact (Carries.step h).toExtends
  | exit k => exact (Carries.exit h).toExtends
  | read pipe size =>
    obtain ⟨data, q, hanswer, rfl⟩ := Registry.read_eq_some h
    exact (Carries.usePipes (.set (Pipe.closed_of_read hanswer))).toExtends
  | hangUp pipe => exact Option.some.inj h ▸ (Carries.usePipes (.dropReader _ pipe)).toExtends
  | track => exact Option.some.inj h ▸ .pipeTrack _ _ _ _ _ _
  | token parent =>
    cases parent with
    | none => exact Option.some.inj h ▸ (Carries.freshToken p).toExtends
    | some parent => exact Option.some.inj h ▸ (Carries.childToken p parent).toExtends
  | cancel token => exact Option.some.inj h ▸ (Carries.cancel p token).toExtends

/-! ## Events -/

structure Site where
  orchestrator : Orchestrator
  /-- Numbers of the processors that the launch has yet to call, each with its pipes. -/
  waiting : List (Sides Nat × Nat)

inductive Event where
  | register (c : Control) (accepted : Bool)
  | start (accepted : Bool)
  | stop
  /-- Somebody triggers shutdown without stopping the orchestrator. -/
  | trigger
  | addTask (name : String)
  /-- The launch takes the reading ends. -/
  | launch
  /-- The launch calls the next processor. -/
  | call
  /-- All processors have returned. -/
  | join
  | feed (side : Side) (chunk : Bytes)
  | dropPipes
  /-- Somebody else's output takes the route. -/
  | route (k : Nat)
  | unroute (id : Nat)
  | plant (s : Stir)

namespace Event

/-- A control was accepted. -/
def registers : Event → Bool
  | register _ accepted => accepted
  | _ => false

/-- The orchestrator was started. -/
def starts : Event → Bool
  | start accepted => accepted
  | _ => false

end Event

/-- What a call leaves of the orchestrator, if it comes out like this. -/
def leaves (o : Orchestrator) (answer : Except Error Orchestrator) (accepted : Bool) :
    Option Orchestrator :=
  match answer, accepted with
  | .ok o', true => some o'
  | .error _, false => some o
  | .ok _, false | .error _, true => none

theorem leaves_eq_some {o o' : Orchestrator} {answer : Except Error Orchestrator} {accepted : Bool}
    (h : o.leaves answer accepted = some o') :
    accepted = true ∧ answer = .ok o' ∨ accepted = false ∧ o' = o := by
  unfold leaves at h
  split at h <;> cases h
  · exact .inl ⟨rfl, rfl⟩
  · exact .inr ⟨rfl, rfl⟩

namespace Site

def new (name : String) : Site := ⟨.new name, []⟩

/-- The site after an event, if it can happen. -/
def advance (w : Site) : Event → Option Site
  | .register c accepted =>
    (w.orchestrator.leaves (w.orchestrator.register c) accepted).map
      fun o => { w with orchestrator := o }
  | .start accepted =>
    (w.orchestrator.leaves w.orchestrator.start accepted).map fun o => { w with orchestrator := o }
  | .stop => some { w with orchestrator := w.orchestrator.stop }
  | .trigger => some { w with orchestrator := w.orchestrator.trigger }
  | .addTask name => some { w with orchestrator := w.orchestrator.addTask (.other name) }
  | .launch =>
    match w.orchestrator.launch, w.orchestrator.pipes with
    | .called, some pipes =>
      let (plant, inputs) := w.orchestrator.plant.split w.orchestrator.processors.length
        w.orchestrator.root pipes
      some ⟨{ w.orchestrator with plant := plant, launch := .running }, inputs.zipIdx⟩
    | _, _ => none
  | .call =>
    match w.waiting with
    | [] => none
    | (pipes, i) :: rest => some ⟨w.orchestrator.startProcessor i pipes, rest⟩
  | .join =>
    if w.orchestrator.launch = .running ∧ w.waiting = []
      ∧ w.orchestrator.processorsReturned = true then
      some { w with orchestrator := { w.orchestrator with launch := .done } }
    else none
  | .feed side chunk => some { w with orchestrator := (w.orchestrator.feed side chunk).1 }
  | .dropPipes => some { w with orchestrator := w.orchestrator.dropPipes.1 }
  | .route k => some { w with orchestrator := { w.orchestrator with
      router := (w.orchestrator.router.register (.outside k)).1 } }
  | .unroute id => some { w with orchestrator := { w.orchestrator with
      router := (w.orchestrator.router.unregister id).1 } }
  | .plant s => (stir w.orchestrator.plant s).map fun plant =>
      { w with orchestrator := { w.orchestrator with plant := plant } }

def play (w : Site) : List Event → Option Site
  | [] => some w
  | e :: es => (w.advance e).bind fun w => w.play es

/-- No task can move, and the launch is not under way. -/
structure Settled (w : Site) : Prop where
  plant : w.orchestrator.plant.Settled
  launch : w.advance .launch = none
  call : w.advance .call = none
  join : w.advance .join = none

theorem settled_iff (w : Site) : w.Settled ↔
    (∀ t ∈ w.orchestrator.plant.tasks, (w.orchestrator.plant.step t).isNone = true) ∧
      (∀ e ∈ [Event.launch, .call, .join], (w.advance e).isNone = true) := by
  simp only [Option.isNone_iff_eq_none, List.forall_mem_cons]
  constructor
  · exact fun h => ⟨fun t _ => h.plant t, h.launch, h.call, h.join, by simp⟩
  · rintro ⟨hrest, hlaunch, hcall, hjoin, -⟩
    refine ⟨fun t => ?_, hlaunch, hcall, hjoin⟩
    -- What is not listed among the tasks cannot move anyway.
    cases hstep : w.orchestrator.plant.step t with
    | none => rfl
    | some p => exact hstep.symm.trans (hrest t (mem_tasks hstep))

instance (w : Site) : Decidable w.Settled := decidable_of_iff _ w.settled_iff.symm

variable {w w' w'' : Site} {es es' : List Event}

theorem play_append (w : Site) (es es' : List Event) :
    w.play (es ++ es') = (w.play es).bind fun w => w.play es' := by
  induction es generalizing w with
  | nil => rfl
  | cons e es ih =>
    rw [List.cons_append, play, play, Option.bind_assoc]
    exact congrArg _ (funext ih)

theorem play_split (hplayed : w.play (es ++ es') = some w'') :
    ∃ w', w.play es = some w' ∧ w'.play es' = some w'' :=
  Option.bind_eq_some_iff.mp (w.play_append es es' ▸ hplayed)

/-- What every event respects, a whole history does. -/
theorem play_invariant {P : Site → Prop}
    (hstep : ∀ {w w' : Site} {e : Event}, P w → w.advance e = some w' → P w')
    (h : P w) (hplayed : w.play es = some w') : P w' := by
  induction es generalizing w with
  | nil => exact Option.some.inj hplayed ▸ h
  | cons e es ih =>
    obtain ⟨next, hadvanced, hrest⟩ := Option.bind_eq_some_iff.mp hplayed
    exact ih (hstep h hadvanced) hrest

/-! ## What an event does -/

/-- A call succeeds, the launch goes on, or nothing happens but that teardown tasks of the outside
world are registered and what is due runs. -/
inductive Deed (w : Site) : Event → Site → Prop where
  | register {c : Control} {o : Orchestrator} (hok : w.orchestrator.register c = .ok o) :
    Deed w (.register c true) { w with orchestrator := o }
  | start {o : Orchestrator} (hok : w.orchestrator.start = .ok o) :
    Deed w (.start true) { w with orchestrator := o }
  | stop : Deed w .stop { w with orchestrator := w.orchestrator.stop }
  | launch {pipes : Sides Nat} (hcalled : w.orchestrator.launch = .called)
      (hown : w.orchestrator.pipes = some pipes) : Deed w .launch ⟨
        { w.orchestrator with
          plant := (w.orchestrator.plant.split w.orchestrator.processors.length
            w.orchestrator.root pipes).1
          launch := .running },
        (w.orchestrator.plant.split w.orchestrator.processors.length
          w.orchestrator.root pipes).2.zipIdx⟩
  | call {pipes : Sides Nat} {i : Nat} {rest : List (Sides Nat × Nat)}
      (hnext : w.waiting = (pipes, i) :: rest) :
      Deed w .call ⟨w.orchestrator.startProcessor i pipes, rest⟩
  | join (hrunning : w.orchestrator.launch = .running) (hspent : w.waiting = [])
      (hreturned : w.orchestrator.processorsReturned = true) :
      Deed w .join { w with orchestrator := { w.orchestrator with launch := .done } }
  | other {e : Event} {o : Orchestrator} {ts : List Teardown} (hregisters : e.registers = false)
      (hstarts : e.starts = false) (hstops : e ≠ .stop) (howes : Owes ts w.orchestrator o)
      (hothers : ∀ t ∈ ts, ∃ name, t = .other name) : Deed w e { w with orchestrator := o }

/-- An event that registers no teardown task. -/
theorem Deed.quiet {e : Event} {o : Orchestrator} (hregisters : e.registers = false)
    (hstarts : e.starts = false) (hstops : e ≠ .stop) (howes : Owes [] w.orchestrator o) :
    w.Deed e { w with orchestrator := o } :=
  .other hregisters hstarts hstops howes fun _ hmem => absurd hmem List.not_mem_nil

theorem advance_deed {e : Event} (h : w.advance e = some w') : w.Deed e w' := by
  cases e with
  | register c accepted =>
    obtain ⟨o, hleft, rfl⟩ := Option.map_eq_some_iff.mp h
    obtain ⟨rfl, hok⟩ | ⟨rfl, rfl⟩ := leaves_eq_some hleft
    · exact .register hok
    · exact .quiet rfl rfl (by rintro ⟨⟩) (.refl _)
  | start accepted =>
    obtain ⟨o, hleft, rfl⟩ := Option.map_eq_some_iff.mp h
    obtain ⟨rfl, hok⟩ | ⟨rfl, rfl⟩ := leaves_eq_some hleft
    · exact .start hok
    · exact .quiet rfl rfl (by rintro ⟨⟩) (.refl _)
  | stop => exact Option.some.inj h ▸ .stop
  | trigger => exact Option.some.inj h ▸ .quiet rfl rfl (by rintro ⟨⟩) (trigger_owes _).1
  | addTask name =>
    refine Option.some.inj h ▸ .other rfl rfl (by rintro ⟨⟩) (addTask_owes _ _) ?_
    exact fun _ hmem => ⟨name, List.mem_singleton.mp hmem⟩
  | launch =>
    rw [advance] at h
    split at h
    case h_1 hcalled hown =>
      cases h
      exact .launch hcalled hown
    case h_2 => cases h
  | call =>
    rw [advance] at h
    split at h
    case h_1 => cases h
    case h_2 hnext =>
      cases h
      exact .call hnext
  | join =>
    rw [advance] at h
    split at h
    case isTrue hdue =>
      cases h
      exact .join hdue.1 hdue.2.1 hdue.2.2
    case isFalse => cases h
  | feed side chunk =>
    exact Option.some.inj h ▸ .quiet rfl rfl (by rintro ⟨⟩) (feed_owes _ side chunk)
  | dropPipes => exact Option.some.inj h ▸ .quiet rfl rfl (by rintro ⟨⟩) (dropPipes_owes _)
  | route k =>
    refine Option.some.inj h ▸ .quiet rfl rfl (by rintro ⟨⟩) ?_
    refine .of_alike (.refl _) ⟨rfl, rfl, rfl, rfl, rfl⟩ rfl ?_ rfl
    rintro id i ⟨⟩
  | unroute id =>
    refine Option.some.inj h ▸ .quiet rfl rfl (by rintro ⟨⟩) ?_
    refine .of_alike (.refl _) ⟨rfl, rfl, rfl, rfl, rfl⟩ rfl ?_ rfl
    exact fun k i hactive => (Router.unregister_active.mp hactive).1
  | plant s =>
    obtain ⟨plant, hstirred, rfl⟩ := Option.map_eq_some_iff.mp h
    refine .quiet rfl rfl (by rintro ⟨⟩) ?_
    exact .of_alike (stir_extends hstirred) ⟨rfl, rfl, rfl, rfl, rfl⟩ rfl (fun _ _ => id) rfl

/-! ## The launch in one piece -/

theorem play_calls (o : Orchestrator) (waiting : List (Sides Nat × Nat)) :
    (Site.mk o waiting).play (List.replicate waiting.length .call)
      = some ⟨waiting.foldl (fun o (pipes, i) => o.startProcessor i pipes) o, []⟩ := by
  induction waiting generalizing o with
  | nil => rfl
  | cons input waiting ih => exact ih _

end Site

theorem stepLaunch_plays {o o' : Orchestrator} (h : o.stepLaunch = some o') :
    ∃ es, (Site.mk o []).play es = some ⟨o', []⟩ := by
  rw [stepLaunch] at h
  split at h
  case h_1 pipes hcalled htaken =>
    cases h
    refine ⟨.launch :: List.replicate
      (o.plant.split o.processors.length o.root pipes).2.zipIdx.length .call, ?_⟩
    rw [Site.play, Site.advance]
    simp only [hcalled, htaken, Option.bind_some]
    exact Site.play_calls _ _
  case h_2 hrunning =>
    split at h
    case isTrue hreturned =>
      cases h
      refine ⟨[.join], ?_⟩
      rw [Site.play, Site.advance, if_pos ⟨hrunning, rfl, hreturned⟩]
      rfl
    case isFalse => cases h
  case h_3 => cases h

/-- With no processor left to call, nothing moves here iff nothing moves in the orchestrator. -/
theorem settled_whole (o : Orchestrator) : (Site.mk o []).Settled ↔ o.Settled := by
  constructor
  · intro h t
    cases t with
    | plant t => exact Option.map_eq_none_iff.mpr (h.plant t)
    | launch =>
      cases hstep : o.stepLaunch with
      | none => exact hstep
      | some o' =>
        have hlaunch := h.launch
        have hjoin := h.join
        rw [stepLaunch] at hstep
        split at hstep
        case h_1 pipes hcalled hown =>
          simp only [Site.advance, hcalled, hown] at hlaunch
          cases hlaunch
        case h_2 hrunning =>
          split at hstep
          case isTrue hreturned =>
            rw [Site.advance, if_pos ⟨hrunning, rfl, hreturned⟩] at hjoin
            cases hjoin
          case isFalse => cases hstep
        case h_3 => cases hstep
  · intro h
    have hidle : o.stepLaunch = none := h .launch
    refine ⟨fun t => Option.map_eq_none_iff.mp (h (.plant t)), ?_, rfl, ?_⟩
    · rw [Site.advance]
      split
      case h_1 hcalled hown =>
        rw [stepLaunch, hcalled, hown] at hidle
        cases hidle
      case h_2 => rfl
    · rw [Site.advance]
      split
      case isTrue hdue =>
        have hreturned : o.processorsReturned = true := hdue.2.2
        have hrunning : o.launch = .running := hdue.1
        rw [stepLaunch, hrunning] at hidle
        simp [hreturned] at hidle
      case isFalse => rfl

end Headend.Orchestrator
