import Headend.Proofs.Ingest.Drive

/-!
# Histories of a registry

An `Event` is a new session, a step of a task, or something from outside: tokens are made and
cancelled, tracks are published and piped, a processor returns, shutdown is triggered. `play` is
what a sequence of them makes of a registry. Every registry that a new one can become is sound.
-/

namespace Headend.Ingest

open Plant

/-! ## New streams -/

namespace Stream

variable (p : Plant) (policies : List Policy) (routed : Bool)

theorem allocate_grows : p.Grows (allocate p policies routed).1 :=
  (Grows.freshToken p).trans (.of_eq rfl rfl rfl)

theorem allocate_sealed : (allocate p policies routed).2.Sealed (allocate p policies routed).1 where
  closed := by simp [allocate, addPipe, freshToken, Tokens.fresh]
  destroyed := nofun

theorem allocate_consumers : (allocate p policies routed).2.consumers = [] := by
  simp [consumers, allocate]

end Stream

namespace Registry

variable {r r' : Registry} {parent token : Nat} {policies : List Policy}

/-! ## New sessions -/

/-- What takes the slot when a stream is added. -/
def entrant (r : Registry) (token : Nat) : Active :=
  let (shutdown, destroyTask, _) := r.shutdown.add (.destroy r.streams.length)
  ⟨r.streams.length, token, [destroyTask, (shutdown.add (.cancel token)).2.1]⟩

/-- A session has started on an empty slot. -/
structure Entered (r : Registry) (token : Nat) (r' : Registry) : Prop extends
    Flows r.plant r.streams r'.plant r'.streams where
  active : r'.active = some (r.entrant token)
  shutdown : r'.shutdown
    = ((r.shutdown.add (.destroy r.streams.length)).1.add (.cancel token)).1
  sessions : r'.sessions = r.sessions ++ [⟨r.streams.length, token⟩]
  runs : r'.runs = r.runs ++ [⟨r.streams.length, token, none, true, .called⟩]
  failFast : r'.failFast = r.failFast
  size : r'.streams.length = r.streams.length + 1
  stream : ∃ x : Stream, r'.streams[r.streams.length]? = some x ∧ x.Sealed r'.plant
    ∧ x.consumers = []
  token : token < r'.plant.tokens.all.length

theorem startSession_entered (r : Registry) (parent : Nat) (policies : List Policy) :
    ∃ token, Entered r.supersede token (r.startSession parent (.ok policies)).1 := by
  -- The tasks are added one after the other; after the trigger each of them runs at once.
  let added := (r.supersede.addStream policies true).1
  let forked := { added with plant := (added.plant.childToken parent).1 }
  let token := added.plant.tokens.all.length
  let first := (forked.addTask (.destroy r.supersede.streams.length)).1
  have hd₁ := addTask_drifts forked (.destroy r.supersede.streams.length)
  have hd₂ := addTask_drifts first (.cancel token)
  -- From here on the added stream only becomes what streams may become.
  have hflows : Flows added.plant added.streams (first.addTask (.cancel token)).1.plant
      (first.addTask (.cancel token)).1.streams :=
    ((Flows.of_grows (.childToken added.plant parent) _).trans hd₁.toFlows).trans hd₂.toFlows
  have hlist : first.shutdown = (forked.shutdown.add _).1 := hd₁.shutdown
  have hjoined : Flows r.supersede.plant r.supersede.streams added.plant added.streams :=
    .concat (Stream.allocate_grows _ policies true) _ _
  refine ⟨token, ?_⟩
  constructor
  case toFlows => exact hjoined.trans hflows
  case active =>
    change some (Active.mk _ _ [_, (first.shutdown.add (.cancel token)).2.1]) = _
    rw [hlist]
    rfl
  case shutdown => exact hd₂.shutdown.trans (hlist ▸ rfl)
  case sessions => exact congrArg (· ++ _) (hd₂.sessions.trans hd₁.sessions)
  case runs => exact congrArg (· ++ _) (hd₂.runs.trans hd₁.runs)
  case failFast => exact hd₂.failFast.trans hd₁.failFast
  case size =>
    have hone : added.streams.length = r.supersede.streams.length + 1 := List.length_append
    exact hd₂.size.trans (hd₁.size.trans hone)
  case stream =>
    obtain ⟨x, hfound, hbecomes⟩ := hflows.streams r.supersede.streams.length _
      List.getElem?_concat_length
    exact ⟨x, hfound, hbecomes.sealed (Stream.allocate_sealed _ _ _),
      hbecomes.consumers.trans (Stream.allocate_consumers _ _ _)⟩
  case token =>
    have hfresh : token < forked.plant.tokens.all.length := by
      simp only [forked, childToken, Tokens.child, List.length_append, List.length_singleton]
      exact Nat.lt_succ_self _
    exact Nat.lt_of_lt_of_le hfresh (hd₁.plant.trans hd₂.plant).tokens.size

theorem Sound.enter (h : r.Tidy) (hempty : r.active = none) (he : Entered r token r') :
    r'.Sound := by
  have hsession : r'.sessions[r.streams.length]? = some ⟨r.streams.length, token⟩ := by
    rw [he.sessions, ← h.sessions, List.getElem?_concat_length]
  have hdrive :
      r'.runs[r.streams.length]? = some ⟨r.streams.length, token, none, true, .called⟩ := by
    rw [he.runs, ← h.runs, List.getElem?_concat_length]
  constructor
  constructor
  case sessions => rw [he.sessions, he.size, List.length_append, h.sessions, List.length_singleton]
  case runs => rw [he.runs, he.size, List.length_append, h.runs, List.length_singleton]
  case tended =>
    intro i hbound
    rw [he.size] at hbound
    obtain hold | rfl := Nat.lt_succ_iff_lt_or_eq.mp hbound
    · refine (h.tended i hold).carry he.plant (he.streams i) ?_ ?_ ?_
      · rw [he.sessions, List.getElem?_append_left (h.sessions ▸ hold)]
      · rw [he.runs, List.getElem?_append_left (h.runs ▸ hold)]
      -- The slot was empty, so no older session loses its place.
      · intro a hactive
        rw [hempty] at hactive
        cases hactive
    · obtain ⟨x, hfound, hsealed, hnone⟩ := he.stream
      exact ⟨token, x, _, hsession, hfound, hdrive,
        ⟨rfl, rfl, rfl, he.token, hsealed, fun _ => hnone, nofun⟩, .inl ⟨_, he.active⟩⟩
  case seated =>
    intro a hactive
    rw [he.active] at hactive
    cases hactive
    exact hsession
  case listed =>
    rw [he.active, he.shutdown]
    exact (hempty ▸ h.listed).add _ _
  case attended =>
    intro a run hactive ha
    rw [he.active] at hactive
    cases hactive
    obtain rfl := Option.some.inj (hdrive.symm.trans ha)
    exact nofun

theorem Sound.startSession (h : r.Sound) (parent : Nat) (allocation : Except String (List Policy)) :
    (r.startSession parent allocation).1.Sound := by
  cases allocation with
  | error reason =>
    refine ⟨h.toTidy.supersede, ?_⟩
    intro a run hactive
    have hactive : r.supersede.active = some a := hactive
    rw [supersede_active] at hactive
    cases hactive
  | ok policies =>
    obtain ⟨token, hentered⟩ := r.startSession_entered parent policies
    exact .enter h.toTidy.supersede r.supersede_active hentered

/-! ## Events -/

inductive Event where
  /-- A token is made elsewhere, on its own or below another. -/
  | token (parent : Option Nat)
  | start (parent : Nat) (allocation : Except String (List Policy))
  | publish (stream : Nat) (track : LocalTrack)
  | pipe (stream : Nat) (codec : Codec) (token : Nat) (source : Source)
  | step (t : Task)
  /-- A processor returns on its own. -/
  | exit (consumer : Nat)
  | cancel (token : Nat)
  | trigger

/-- The registry after an event, if it can happen. -/
def advance (r : Registry) : Event → Option Registry
  | .token none => some { r with plant := r.plant.freshToken.1 }
  | .token (some parent) => some { r with plant := (r.plant.childToken parent).1 }
  | .start parent allocation => some (r.startSession parent allocation).1
  | .publish s track => some (r.publish s track)
  | .pipe s codec token source => some (r.pipe s codec token source)
  | .step t => r.step t
  | .exit k => (r.plant.exit k).map fun plant => { r with plant := plant }
  | .cancel token => some { r with plant := r.plant.cancel token }
  | .trigger => some r.trigger

def play (r : Registry) : List Event → Option Registry
  | [] => some r
  | e :: es => (r.advance e).bind fun r => r.play es

theorem play_append (r : Registry) (es es' : List Event) :
    r.play (es ++ es') = (r.play es).bind fun r => r.play es' := by
  induction es generalizing r with
  | nil => rfl
  | cons e es ih =>
    cases h : r.advance e with
    | none => simp only [List.cons_append, play, h, Option.bind_none]
    | some r' =>
      simp only [List.cons_append, play, h, Option.bind_some]
      exact ih r'

/-- What every event respects, a whole history does. -/
theorem play_invariant {P : Registry → Prop}
    (hstep : ∀ {r r' : Registry} {e : Event}, P r → r.advance e = some r' → P r')
    {es : List Event} (h : P r) (hplayed : r.play es = some r') : P r' := by
  induction es generalizing r with
  | nil => exact Option.some.inj hplayed ▸ h
  | cons e es ih =>
    obtain ⟨next, hadvanced, hrest⟩ := Option.bind_eq_some_iff.mp hplayed
    exact ih (hstep h hadvanced) hrest

/-- What an event is to the slot. -/
inductive Advance (r : Registry) : Event → Registry → Prop where
  | start (parent : Nat) (allocation : Except String (List Policy)) :
    Advance r (.start parent allocation) (r.startSession parent allocation).1
  | run {k : Nat} {r' : Registry} (hstep : r.stepRun k = some r') : Advance r (.step (.run k)) r'
  | trigger : Advance r .trigger r.trigger
  | drift {e : Event} {r' : Registry} (hother : e ≠ .trigger) (hd : r.Drifts r') : Advance r e r'

theorem advance_cases {e : Event} (h : r.advance e = some r') : r.Advance e r' := by
  cases e with
  | start parent allocation => exact Option.some.inj h ▸ .start parent allocation
  | trigger => exact Option.some.inj h ▸ .trigger
  | step t =>
    cases t with
    | run k => exact .run h
    | plant t => exact .drift nofun (.stepPlant h)
    | piping k => exact .drift nofun (.stepPiping h)
  | token parent =>
    cases parent with
    | none => exact Option.some.inj h ▸ .drift nofun (.plants (.freshToken _))
    | some parent => exact Option.some.inj h ▸ .drift nofun (.plants (.childToken _ _))
  | publish s track => exact Option.some.inj h ▸ .drift nofun (.publish r s track)
  | pipe s codec token source =>
    cases h
    exact .drift nofun ⟨⟨rfl, rfl, rfl, rfl, rfl, rfl⟩, .of_grows (.refl _) _⟩
  | exit k =>
    obtain ⟨plant, hleft, rfl⟩ := Option.map_eq_some_iff.mp h
    exact .drift nofun (.plants (.exit hleft))
  | cancel token => exact Option.some.inj h ▸ .drift nofun (.plants (.cancel _ _))

theorem Sound.advance {e : Event} (h : r.Sound) (hadvanced : r.advance e = some r') : r'.Sound := by
  cases advance_cases hadvanced with
  | start parent allocation => exact h.startSession parent allocation
  | run hstep => exact h.stepRun hstep
  | trigger => exact h.trigger
  | drift hother hd => exact h.drift hd

theorem Sound.new (failFast : Bool) : (Registry.new failFast).Sound where
  sessions := rfl
  runs := rfl
  tended _ := nofun
  seated := nofun
  listed := .new
  attended := nofun

theorem Sound.play {es : List Event} (h : r.Sound) (hplayed : r.play es = some r') : r'.Sound :=
  play_invariant .advance h hplayed

/-! ## Events from outside -/

/-- An event, or what those who hold a stream or one of its pipes do to it: a stream is destroyed, a
processor reads as it likes and lets go of a pipe early. -/
inductive Act where
  | event (e : Event)
  | destroy (stream : Nat)
  /-- At most `size` bytes are read. -/
  | read (pipe size : Nat)
  | hangUp (pipe : Nat)

/-- The plant after a pipe was read, if there was anything to read. -/
def read (p : Plant) (pipe size : Nat) : Option Plant :=
  match (p.pipes.get pipe).read size with
  | .chunk _ q => some { p with pipes := p.pipes.set pipe q }
  | .ended | .broken | .wait => none

/-- The registry after an act, if it can happen. -/
def act (r : Registry) : Act → Option Registry
  | .event e => r.advance e
  | .destroy s => some (r.destroy s)
  | .read pipe size => (read r.plant pipe size).map fun plant => { r with plant := plant }
  | .hangUp pipe => some { r with plant := r.plant.updatePipe pipe Pipe.dropReader }

def perform (r : Registry) : List Act → Option Registry
  | [] => some r
  | a :: as => (r.act a).bind fun r => r.perform as

/-- What every act respects, a whole history of acts does. -/
theorem perform_invariant {P : Registry → Prop}
    (hstep : ∀ {r r' : Registry} {a : Act}, P r → r.act a = some r' → P r')
    {as : List Act} (h : P r) (hperformed : r.perform as = some r') : P r' := by
  induction as generalizing r with
  | nil => exact Option.some.inj hperformed ▸ h
  | cons a as ih =>
    obtain ⟨next, hacted, hrest⟩ := Option.bind_eq_some_iff.mp hperformed
    exact ih (hstep h hacted) hrest

theorem read_eq_some {p p' : Plant} {pipe size : Nat} (h : read p pipe size = some p') :
    ∃ data q, (p.pipes.get pipe).read size = .chunk data q
      ∧ p' = { p with pipes := p.pipes.set pipe q } := by
  rw [read] at h
  split at h
  case h_1 data q hanswer =>
    cases h
    exact ⟨data, q, hanswer, rfl⟩
  all_goals cases h

theorem Sound.act {a : Act} (h : r.Sound) (hacted : r.act a = some r') : r'.Sound := by
  cases a with
  | event e => exact h.advance hacted
  | destroy s => exact Option.some.inj hacted ▸ h.drift (.destroy r s)
  | read pipe size =>
    obtain ⟨plant, htaken, rfl⟩ := Option.map_eq_some_iff.mp hacted
    obtain ⟨data, q, -, rfl⟩ := read_eq_some htaken
    exact h.drift (.plants (.of_eq rfl rfl rfl))
  | hangUp pipe => exact Option.some.inj hacted ▸ h.drift (.plants (.of_eq rfl rfl rfl))

theorem Sound.perform {as : List Act} (h : r.Sound) (hperformed : r.perform as = some r') :
    r'.Sound :=
  perform_invariant .act h hperformed

end Registry

end Headend.Ingest
