import Headend.Proofs.Hls.History

/-!
# What a call leaves behind

A session has two that clean up after it, the end of the call and the destruction of the processor,
and only one of them gets it. Whoever does owns the directory from then on: the call removes it
before it returns, the destruction leaves it to the background.
-/

namespace Headend.Hls

/-! ## Owners of the directory -/

namespace Processor

/-- Nothing is published, nothing is left to be removed. -/
structure Idle (p : Processor) : Prop where
  session : p.session = none
  doomed : p.doomed = []

/-- The directory is left to the background, or gone. -/
structure Left (p : Processor) (dir : Path) : Prop where
  session : p.session = none
  dir : p.doomed = [dir] ∨ p.doomed = [] ∧ p.files.Clear dir

/-- The session is published, or was taken away by a destruction. -/
inductive Holds (p : Processor) (s : Session) : Prop where
  | own (hsession : p.session = some s) (hdoomed : p.doomed = []) (halive : p.killed = false)
  | taken (hleft : p.Left s.dir)

variable {p : Processor} {s : Session} {dir : Path}

theorem destroy_eq (h : p.session = none) : p.destroy = { p with killed := true } := by
  simp [destroy, endSession, h]

theorem destroy_killed (p : Processor) : p.destroy.killed = true := by
  cases h : p.session <;> simp [destroy, endSession, h]

theorem mem_of_mem_destroy {e : Path × Files.Node} (hmem : e ∈ p.destroy.files.entries) :
    e ∈ p.files.entries := by
  cases hsession : p.session with
  | none => rwa [destroy_eq hsession] at hmem
  | some s =>
    rw [destroy, endSession, hsession] at hmem
    exact Files.mem_of_mem_erase hmem

theorem Idle.destroy (h : p.Idle) : p.destroy.Idle := by
  rw [destroy_eq h.session]
  exact ⟨h.session, h.doomed⟩

theorem Left.destroy (h : p.Left dir) : p.destroy.Left dir := by
  rw [destroy_eq h.session]
  exact ⟨h.session, h.dir⟩

/-- A destruction that finds the session takes it. -/
theorem Holds.destroy (h : p.Holds s) : p.destroy.Holds s := by
  refine .taken ?_
  cases h with
  | own hsession hdoomed => exact ⟨by simp [Processor.destroy, endSession, hsession],
      .inl (by simp [Processor.destroy, endSession, hsession, hdoomed])⟩
  | taken hleft => exact hleft.destroy

theorem Left.remove {d : Path} {rest : List Path} (h : p.Left dir) (hdue : p.doomed = d :: rest) :
    Left { p with files := p.files.removeTree d, doomed := rest } dir := by
  obtain hdoomed | ⟨hdoomed, -⟩ := h.dir <;> cases hdue.symm.trans hdoomed
  exact ⟨h.session, .inr ⟨rfl, Files.clear_removeTree _ _⟩⟩

end Processor

/-! ## Standings of a call -/

/-- What a processor looks like to the call for a session, from where the call stands. -/
inductive Fits (s : Session) (p : Processor) : Phase → Prop where
  | called {id manifest : String} (hidle : p.Idle) (hclear : p.files.Clear s.dir)
      (hnamed : .named p.base id manifest = s) : Fits s p (.called id manifest)
  | making (hidle : p.Idle) (hclear : p.files.Clear s.dir) : Fits s p (.making s)
  | made (hidle : p.Idle) : Fits s p (.made s)
  | discarding {e : TranscodeError} (hidle : p.Idle) : Fits s p (.discarding s.dir e)
  | running (hheld : p.Holds s) : Fits s p .running
  | stopping (hheld : p.Holds s) : Fits s p .stopping
  | removing {result : Except TranscodeError Unit} (hidle : p.Idle) :
      Fits s p (.removing s.dir result)
  | returned {result : Except TranscodeError Unit} (hleft : p.Left s.dir) :
      Fits s p (.returned result)

namespace Fits

variable {s : Session} {p p' : Processor} {phase phase' : Phase} {e : Event}

/-- The end of a call removes the directory itself if it still gets the session. -/
theorem finish (hheld : p.Holds s) (result : Except TranscodeError Unit) :
    Fits s (finish p result).1 (finish p result).2 := by
  cases hheld with
  | own hsession hdoomed =>
    rw [Hls.finish, Processor.endSession, hsession]
    exact .removing ⟨rfl, hdoomed⟩
  | taken hleft =>
    rw [Hls.finish, Processor.endSession, hleft.session]
    exact .returned ⟨rfl, hleft.dir⟩

theorem goes (h : Fits s p phase) (hgoes : Goes p phase e p' phase') : Fits s p' phase' := by
  cases hgoes with
  | barred =>
    cases h with
    | called hidle hclear => exact .returned ⟨hidle.session, .inr ⟨hidle.doomed, hclear⟩⟩
  | begun =>
    cases h with
    | called hidle hclear hnamed =>
      rw [hnamed]
      exact .making hidle hclear
  | refused =>
    cases h with
    | making hidle hclear => exact .returned ⟨hidle.session, .inr ⟨hidle.doomed, hclear⟩⟩
  | made =>
    cases h with
    | making hidle => exact .made ⟨hidle.session, hidle.doomed⟩
  | spoiled =>
    cases h with
    | made hidle => exact .discarding hidle
  | failed =>
    cases h with
    | made hidle => exact .removing ⟨rfl, hidle.doomed⟩
  | ran halive =>
    cases h with
    | made hidle => exact .running (.own rfl hidle.doomed halive)
  | discarded =>
    cases h with
    | discarding hidle =>
      exact .returned ⟨hidle.session, .inr ⟨hidle.doomed, Files.clear_removeTree _ _⟩⟩
  | ended =>
    cases h with
    | running hheld => exact finish hheld _
  | stopping =>
    cases h with
    | running hheld => exact .stopping hheld
  | stopped =>
    cases h with
    | stopping hheld => exact finish hheld _
  | removed =>
    cases h with
    | removing hidle =>
      exact .returned ⟨hidle.session, .inr ⟨hidle.doomed, Files.clear_removeTree _ _⟩⟩

theorem destroy (h : Fits s p phase) : Fits s p.destroy phase := by
  cases h with
  | called hidle hclear hnamed =>
    refine .called hidle.destroy ?_ ?_ <;> rw [Processor.destroy_eq hidle.session] <;> assumption
  | making hidle hclear =>
    refine .making hidle.destroy ?_
    rw [Processor.destroy_eq hidle.session]
    exact hclear
  | made hidle => exact .made hidle.destroy
  | discarding hidle => exact .discarding hidle.destroy
  | running hheld => exact .running hheld.destroy
  | stopping hheld => exact .stopping hheld.destroy
  | removing hidle => exact .removing hidle.destroy
  | returned hleft => exact .returned hleft.destroy

/-- There is something for the background to do only after a destruction. -/
theorem remove {dir : Path} {rest : List Path} (h : Fits s p phase)
    (hdue : p.doomed = dir :: rest) :
    Fits s { p with files := p.files.removeTree dir, doomed := rest } phase := by
  have hbusy (hidle : p.doomed = []) : False := nomatch hidle.symm.trans hdue
  have hheld (hheld : p.Holds s) :
      Processor.Holds { p with files := p.files.removeTree dir, doomed := rest } s := by
    cases hheld with
    | own _ hdoomed => exact (hbusy hdoomed).elim
    | taken hleft => exact .taken (hleft.remove hdue)
  cases h with
  | called hidle | making hidle | made hidle | discarding hidle | removing hidle =>
    exact (hbusy hidle.doomed).elim
  | running hown => exact .running (hheld hown)
  | stopping hown => exact .stopping (hheld hown)
  | returned hleft => exact .returned (hleft.remove hdue)

/-- Others change the tree of files, and do not make the directory. -/
theorem withFiles {files : Files} (h : Fits s p phase)
    (hkeeps : p.files.Clear s.dir → files.Clear s.dir) :
    Fits s { p with files := files } phase := by
  have hleft (hleft : p.Left s.dir) : Processor.Left { p with files := files } s.dir :=
    ⟨hleft.session, hleft.dir.imp_right fun ⟨hdoomed, hclear⟩ => ⟨hdoomed, hkeeps hclear⟩⟩
  have hheld (hheld : p.Holds s) : Processor.Holds { p with files := files } s := by
    cases hheld with
    | own hsession hdoomed halive => exact .own hsession hdoomed halive
    | taken hgone => exact .taken (hleft hgone)
  cases h with
  | called hidle hclear hnamed => exact .called ⟨hidle.session, hidle.doomed⟩ (hkeeps hclear) hnamed
  | making hidle hclear => exact .making ⟨hidle.session, hidle.doomed⟩ (hkeeps hclear)
  | made hidle => exact .made ⟨hidle.session, hidle.doomed⟩
  | discarding hidle => exact .discarding ⟨hidle.session, hidle.doomed⟩
  | running hown => exact .running (hheld hown)
  | stopping hown => exact .stopping (hheld hown)
  | removing hidle => exact .removing ⟨hidle.session, hidle.doomed⟩
  | returned hgone => exact .returned (hleft hgone)

/-- The session is published by a call that runs, on a processor that was not destroyed. -/
theorem of_session {t : Session} (h : Fits s p phase) (hpublished : p.session = some t) :
    t = s ∧ p.killed = false ∧ (phase = .running ∨ phase = .stopping) := by
  have hheld (hheld : p.Holds s) : t = s ∧ p.killed = false := by
    cases hheld with
    | own hsession _ halive => exact ⟨Option.some.inj (hpublished.symm.trans hsession), halive⟩
    | taken hleft => cases hpublished.symm.trans hleft.session
  cases h with
  | called hidle | making hidle | made hidle | discarding hidle | removing hidle =>
    cases hpublished.symm.trans hidle.session
  | running hown => exact ⟨(hheld hown).1, (hheld hown).2, .inl rfl⟩
  | stopping hown => exact ⟨(hheld hown).1, (hheld hown).2, .inr rfl⟩
  | returned hleft => cases hpublished.symm.trans hleft.session

end Fits

/-! ## Destroyed processors -/

theorem Goes.killed {p p' : Processor} {phase phase' : Phase} {e : Event}
    (hgoes : Goes p phase e p' phase') (h : p.killed = true) : p'.killed = true := by
  have hfinish (result : Except TranscodeError Unit) : (finish p result).1.killed = true := by
    cases hsession : p.session <;> simp [Hls.finish, Processor.endSession, hsession]
  cases hgoes with
  | ended | stopped => exact hfinish _
  | failed => rfl
  | _ => exact h

/-- A call that makes nothing any more: it has returned, or will do so as soon as it begins. -/
inductive Barred (p : Processor) : Phase → Prop where
  | called {id manifest : String} (hkilled : p.killed = true) : Barred p (.called id manifest)
  | returned {result : Except TranscodeError Unit} : Barred p (.returned result)

namespace Barred

variable {p p' : Processor} {phase phase' : Phase} {e : Event}

theorem of_killed (h : Barred p phase) (hkilled : p.killed = true → p'.killed = true) :
    Barred p' phase := by
  cases h with
  | called hstill => exact .called (hkilled hstill)
  | returned => exact .returned

theorem goes (h : Barred p phase) (hgoes : Goes p phase e p' phase') :
    Barred p' phase' ∧ p' = p := by
  cases h with
  | called hkilled =>
    cases hgoes with
    | barred => exact ⟨.returned, rfl⟩
    | begun halive => cases hkilled.symm.trans halive
  | returned => cases hgoes

end Barred

/-! ## The way of a call -/

namespace Phase

/-- Steps that a call has before it at most. -/
def stepsLeft : Phase → Nat
  | called _ _ => 6
  | making _ => 5
  | made _ => 4
  | running => 3
  | stopping => 2
  | discarding _ _ | removing _ _ => 1
  | returned _ => 0

/-- The call has made its directory and not returned yet. -/
def hasDir : Phase → Bool
  | called _ _ | making _ | returned _ => false
  | made _ | discarding _ _ | running | stopping | removing _ _ => true

end Phase

theorem finish_stepsLeft (p : Processor) (result : Except TranscodeError Unit) :
    (finish p result).2.stepsLeft ≤ 1 := by
  cases hsession : p.session <;>
    simp [finish, Processor.endSession, hsession, Phase.stepsLeft]

theorem Goes.nearer {p p' : Processor} {phase phase' : Phase} {e : Event}
    (hgoes : Goes p phase e p' phase') : phase'.stepsLeft < phase.stepsLeft := by
  cases hgoes with
  | ended | stopped =>
    refine Nat.lt_of_le_of_lt (finish_stepsLeft p _) ?_
    decide
  | _ => simp [Phase.stepsLeft]

/-- A cancelled call goes on until it returns. -/
theorem exists_goes (p : Processor) {phase : Phase} (hleft : phase.stepsLeft ≠ 0) :
    ∃ e next, transcode p true phase e = some next := by
  cases phase with
  | called =>
    refine ⟨.begin, ?_⟩
    rw [transcode]
    split <;> exact ⟨_, rfl⟩
  | making s =>
    refine ⟨.makeDir none, ?_⟩
    cases hmade : p.files.makePath s.dir <;> simp [transcode, hmade]
  | made => exact ⟨.setUp none, _, rfl⟩
  | discarding => exact ⟨.remove, _, rfl⟩
  | running => exact ⟨.stop, _, rfl⟩
  | stopping => exact ⟨.stopped, _, rfl⟩
  | removing => exact ⟨.remove, _, rfl⟩
  | returned => exact absurd rfl hleft

/-! ## Over a history -/

/-- A call comes to have a directory by making it. -/
theorem Goes.makes {p p' : Processor} {phase phase' : Phase} {e : Event}
    (hgoes : Goes p phase e p' phase') (hbefore : ¬ phase.hasDir = true)
    (hafter : phase'.hasDir = true) : ∃ s, phase = .making s ∧ e = .makeDir none ∧
      p.files.makePath s.dir = .ok p'.files := by
  cases hgoes with
  | made hok => exact ⟨_, rfl, rfl, hok⟩
  | barred | begun | refused => cases hafter
  | _ => exact absurd rfl hbefore

namespace Job

variable {j j' : Job} {m : Move} {ms before after : List Move} {s : Session} {base : Path}
  {files : Files} {id manifest : String}

theorem fits_advance (hnamed : s.dir ≠ []) (hown : ∀ node, m ≠ .put s.dir node)
    (h : Fits s j.processor j.phase) (hadvanced : j.advance m = some j') :
    Fits s j'.processor j'.phase := by
  cases advance_happens hadvanced with
  | step hgoes => exact h.goes hgoes
  | cancel => exact h
  | destroy => exact h.destroy
  | remove hdue => exact h.remove hdue
  | put hok =>
    refine h.withFiles fun hclear => hclear.putNew hnamed ?_ hok
    rintro rfl
    exact hown _ rfl
  | discard =>
    exact h.withFiles fun hclear => hclear.of_entries fun _ => Files.mem_of_mem_removeTree

theorem fits_of_play (hclear : files.Clear (Session.named base id manifest).dir)
    (hown : ∀ node, .put (Session.named base id manifest).dir node ∉ ms)
    (hplayed : (new base files id manifest).play ms = some j) :
    Fits (.named base id manifest) j.processor j.phase := by
  have hstart : Fits (.named base id manifest) (new base files id manifest).processor
      (new base files id manifest).phase := .called ⟨rfl, rfl⟩ hclear rfl
  refine Runs.foldlM_invariant (P := fun j => Fits _ j.processor j.phase) ?_ hstart hplayed
  intro j j' m hmem h hadvanced
  refine fits_advance (by simp [Session.named]) ?_ h hadvanced
  rintro node rfl
  exact hown node hmem

theorem killed_advance (h : j.processor.killed = true) (hadvanced : j.advance m = some j') :
    j'.processor.killed = true := by
  cases advance_happens hadvanced with
  | step hgoes => exact hgoes.killed h
  | destroy => exact Processor.destroy_killed _
  | _ => exact h

theorem killed_of_play (hdestroyed : .destroy ∈ ms) (hplayed : j.play ms = some j') :
    j'.processor.killed = true := by
  obtain ⟨before, after, rfl⟩ := List.append_of_mem hdestroyed
  obtain ⟨j₁, -, hrest⟩ := Runs.foldlM_append_eq_some.mp hplayed
  obtain ⟨j₂, hadvanced, hrest⟩ := Runs.foldlM_cons_eq_some.mp hrest
  cases hadvanced
  exact Runs.foldlM_invariant (P := fun j => j.processor.killed = true)
    (fun _ => killed_advance) (Processor.destroy_killed _) hrest

/-- Before the call begins, nothing but a beginning makes it go on. -/
theorem called_of_play (hstill : .step .begin ∉ ms)
    (hplayed : (new base files id manifest).play ms = some j) : j.phase = .called id manifest := by
  refine Runs.foldlM_invariant (P := fun j => j.phase = .called id manifest) ?_ rfl hplayed
  intro j j' m hmem h hadvanced
  cases advance_happens hadvanced with
  | step hgoes =>
    rw [h] at hgoes
    cases hgoes <;> exact absurd hmem hstill
  | _ => exact h

/-- While a call makes nothing, only others put anything into the tree of files. -/
theorem entries_of_barred (h : Barred j.processor j.phase) (hplayed : j.play ms = some j') :
    ∀ e ∈ j'.files.entries, e ∈ j.files.entries ∨ .put e.1 e.2 ∈ ms := by
  refine (Runs.foldlM_invariant (P := fun j' => Barred j'.processor j'.phase ∧
    ∀ e ∈ j'.files.entries, e ∈ j.files.entries ∨ .put e.1 e.2 ∈ ms)
    ?_ ⟨h, fun _ => .inl⟩ hplayed).2
  rintro j₁ j₂ m hmem ⟨hbarred, hmade⟩ hadvanced
  cases advance_happens hadvanced with
  | step hgoes =>
    obtain ⟨hbarred, rfl⟩ := hbarred.goes hgoes
    exact ⟨hbarred, hmade⟩
  | cancel => exact ⟨hbarred, hmade⟩
  | destroy =>
    refine ⟨hbarred.of_killed fun _ => Processor.destroy_killed _, fun e hthere => hmade e ?_⟩
    exact Processor.mem_of_mem_destroy hthere
  | remove | discard =>
    exact ⟨hbarred.of_killed id, fun e hthere => hmade e (Files.mem_of_mem_removeTree hthere)⟩
  | put hok =>
    refine ⟨hbarred.of_killed id, fun e hthere => ?_⟩
    obtain ⟨-, rfl⟩ := Files.eq_put_of_putNew hok
    obtain hthere | hnew := List.mem_append.mp hthere
    · exact hmade e hthere
    · cases List.mem_singleton.mp hnew
      exact .inr hmem

/-- A published session belongs to the call that made its directory, where nothing was before. -/
theorem made_of_play (hclear : files.Clear (Session.named base id manifest).dir)
    (hown : ∀ node, .put (Session.named base id manifest).dir node ∉ ms)
    (hplayed : (new base files id manifest).play ms = some j) (hthere : j.phase.hasDir = true) :
    ∃ before after j₁ j₂, ms = before ++ .step (.makeDir none) :: after ∧
      (new base files id manifest).play before = some j₁ ∧
      j₁.advance (.step (.makeDir none)) = some j₂ ∧
      j₁.files.Clear (Session.named base id manifest).dir ∧
      j₂.files.node? (Session.named base id manifest).dir = some .dir := by
  obtain ⟨before, m, after, j₁, j₂, rfl, hearly, hturn, hoff, hon⟩ :=
    Runs.exists_turn (P := fun j => j.phase.hasDir = true) Bool.noConfusion hthere hplayed
  have hfits := fits_of_play hclear (fun node hmem => hown node (List.mem_append_left _ hmem))
    hearly
  cases advance_happens hturn with
  | step hgoes =>
    obtain ⟨s, hmaking, rfl, hok⟩ := hgoes.makes hoff hon
    rw [hmaking] at hfits
    cases hfits with
    | making hidle hclear =>
      refine ⟨before, after, j₁, _, rfl, hearly, hturn, hclear, ?_⟩
      exact Files.node?_makePath hok (hclear.node? (by simp [Session.named]) (List.prefix_refl _))
  | _ => exact absurd hon hoff

/-! ### Ends -/

/-- Neither the call nor the background leaves the directory. -/
theorem clear_of_over (h : Fits s j.processor j.phase) (hsettled : j.Over) :
    j.files.Clear s.dir := by
  obtain ⟨⟨result, hreturned⟩, hidle⟩ := hsettled
  rw [hreturned] at h
  cases h with
  | returned hleft =>
    obtain hdoomed | ⟨-, hclear⟩ := hleft.dir
    · rw [advance, Processor.removeDoomed, hdoomed] at hidle
      cases hidle
    · exact hclear

theorem session_eq_none (h : Fits s j.processor j.phase)
    (hgone : (∃ result, j.phase = .returned result) ∨ j.processor.killed = true) :
    j.processor.session = none := by
  cases hpublished : j.processor.session with
  | none => rfl
  | some t =>
    obtain ⟨-, halive, hruns⟩ := h.of_session hpublished
    obtain ⟨result, hreturned⟩ | hkilled := hgone
    · rw [hreturned] at hruns
      obtain hruns | hruns := hruns <;> cases hruns
    · cases halive.symm.trans hkilled

/-- A call that begins after a destruction makes nothing. -/
theorem entries_of_destroyed (hstill : .step .begin ∉ before)
    (hplayed : (new base files id manifest).play (before ++ .destroy :: after) = some j) :
    ∃ j₁, (new base files id manifest).play before = some j₁ ∧
      ∀ e ∈ j.files.entries, e ∈ j₁.files.entries ∨ .put e.1 e.2 ∈ after := by
  obtain ⟨j₁, hearly, hrest⟩ := Runs.foldlM_append_eq_some.mp hplayed
  obtain ⟨j₂, hadvanced, hlate⟩ := Runs.foldlM_cons_eq_some.mp hrest
  cases hadvanced
  refine ⟨j₁, hearly, fun e hthere => ?_⟩
  have hbarred : Barred (j₁.withProcessor j₁.processor.destroy).processor j₁.phase := by
    rw [called_of_play hstill hearly]
    exact .called (Processor.destroy_killed _)
  obtain hthere | hput := entries_of_barred hbarred hlate e hthere
  · exact .inl (Processor.mem_of_mem_destroy hthere)
  · exact .inr hput

theorem exists_returned (j : Job) (hcancelled : j.cancelled = true) :
    ∃ ms j', j.play ms = some j' ∧ j'.phase.stepsLeft = 0 := by
  induction hleft : j.phase.stepsLeft using Nat.strongRecOn generalizing j with
  | ind n ih =>
    by_cases hreturned : n = 0
    · exact ⟨[], j, rfl, hleft.trans hreturned⟩
    · obtain ⟨e, ⟨p, phase⟩, hgoes⟩ := exists_goes j.processor (hleft ▸ hreturned)
      have hadvanced : j.advance (.step e) = some ⟨p, phase, j.cancelled⟩ := by
        rw [advance, hcancelled, hgoes]
        rfl
      have hnearer := (transcode_goes hgoes).nearer
      obtain ⟨ms, j', hplayed, hthere⟩ :=
        ih _ (hleft ▸ hnearer) ⟨p, phase, j.cancelled⟩ hcancelled rfl
      exact ⟨.step e :: ms, j', Runs.foldlM_cons_eq_some.mpr ⟨_, hadvanced, hplayed⟩, hthere⟩

theorem exists_removed (j : Job) :
    ∃ ms j', j.play ms = some j' ∧ j'.phase = j.phase ∧ j'.advance .remove = none := by
  induction hdoomed : j.processor.doomed generalizing j with
  | nil =>
    refine ⟨[], j, rfl, rfl, ?_⟩
    rw [advance, Processor.removeDoomed, hdoomed]
    rfl
  | cons dir rest ih =>
    obtain ⟨ms, j', hplayed, hsame, hidle⟩ := ih (j.withProcessor
      { j.processor with files := j.files.removeTree dir, doomed := rest }) rfl
    refine ⟨.remove :: ms, j', Runs.foldlM_cons_eq_some.mpr ⟨_, ?_, hplayed⟩, hsame, hidle⟩
    rw [advance, Processor.removeDoomed, hdoomed]
    rfl

/-- Every call can be brought to its end by cancelling it. -/
theorem exists_over (j : Job) : ∃ ms j', j.play ms = some j' ∧ j'.Over := by
  obtain ⟨ms₁, j₁, hplayed₁, hreturned⟩ := exists_returned { j with cancelled := true } rfl
  obtain ⟨ms₂, j₂, hplayed₂, hsame, hidle⟩ := j₁.exists_removed
  refine ⟨.cancel :: (ms₁ ++ ms₂), j₂, Runs.foldlM_cons_eq_some.mpr ⟨_, rfl, ?_⟩, ?_, hidle⟩
  · exact Runs.foldlM_append_eq_some.mpr ⟨j₁, hplayed₁, hplayed₂⟩
  · rw [hsame]
    cases hphase : j₁.phase with
    | returned result => exact ⟨result, rfl⟩
    | _ =>
      rw [hphase] at hreturned
      cases hreturned

/-- Whatever happens to a call, once it has returned and the background is done, which can always be
brought about, neither its directory nor anything in it is left; nothing is published after the
return or after a destruction; what is published lies in the directory that the call has made; and a
call that begins after a destruction makes nothing. -/
theorem cleaned_up (hfresh : files.Clear (Session.named base id manifest).dir)
    (hown : ∀ node, .put (Session.named base id manifest).dir node ∉ ms)
    (hplayed : (new base files id manifest).play ms = some j) :
    (j.Over → ∀ path, (Session.named base id manifest).dir <+: path → j.files.node? path = none) ∧
    (∃ rest j', j.play rest = some j' ∧ j'.Over) ∧
    ((∃ result, j.phase = .returned result) ∨ .destroy ∈ ms → j.processor.output? = none) ∧
    (∀ dir file, j.processor.output? = some (dir, file) →
      dir = (Session.named base id manifest).dir ∧ file = dir ++ [manifest ++ ".m3u8"] ∧
      ∃ before after j₁ j₂, ms = before ++ .step (.makeDir none) :: after ∧
        (new base files id manifest).play before = some j₁ ∧
        j₁.advance (.step (.makeDir none)) = some j₂ ∧
        j₁.files.node? dir = none ∧ j₂.files.node? dir = some .dir) ∧
    ∀ before after, ms = before ++ .destroy :: after → .step .begin ∉ before →
      ∃ j₁, (new base files id manifest).play before = some j₁ ∧
        ∀ e ∈ j.files.entries, e ∈ j₁.files.entries ∨ .put e.1 e.2 ∈ after := by
  have hnamed : (Session.named base id manifest).dir ≠ [] := by simp [Session.named]
  have hfits := fits_of_play hfresh hown hplayed
  refine ⟨?cleared, j.exists_over, ?silent, ?published, ?barred⟩
  case cleared => exact fun hsettled _ hbelow => (clear_of_over hfits hsettled).node? hnamed hbelow
  case silent =>
    intro hgone
    have hnone := session_eq_none hfits (hgone.imp_right (killed_of_play · hplayed))
    rw [Processor.output?, hnone]
    rfl
  case published =>
    intro dir file houtput
    obtain ⟨t, hpublished, ⟨⟩⟩ := Option.map_eq_some_iff.mp houtput
    obtain ⟨rfl, -, hruns⟩ := hfits.of_session hpublished
    have hthere : j.phase.hasDir = true := by
      obtain hruns | hruns := hruns <;> rw [hruns] <;> rfl
    obtain ⟨before, after, j₁, j₂, hsplit, hearly, hturn, hclear, hmade⟩ :=
      made_of_play hfresh hown hplayed hthere
    exact ⟨rfl, rfl, before, after, j₁, j₂, hsplit, hearly, hturn,
      hclear.node? hnamed (List.prefix_refl _), hmade⟩
  case barred =>
    rintro before after rfl hstill
    exact entries_of_destroyed hstill hplayed

/-- A processor that is destroyed while its transcoder runs: the session is published in a directory
of its own, then taken back, and the background removes the directory with what the transcoder has
put there. -/
theorem cleaned_up_destroyed :
    ((launched []).processor.output? = some (["tmp", "s-hls"], ["tmp", "s-hls", "m.m3u8"]) ∧
      ∃ before after j₁, [.step .begin, .step (.makeDir none), .step (.setUp none)]
          = before ++ .step (.makeDir none) :: after ∧
        (new ["tmp"] .empty "s" "m").play before = some j₁ ∧
        j₁.files.node? ["tmp", "s-hls"] = none) ∧
    ∃ j : Job, (launched []).play [.put ["tmp", "s-hls", "1.ts"] (.file []), .destroy, .step .stop,
        .remove, .step .stopped] = some j ∧
      j.processor.output? = none ∧ j.files.node? ["tmp", "s-hls"] = none ∧
      j.files.node? ["tmp", "s-hls", "pipe-audio.fifo"] = none := by
  have hfresh : Files.Clear .empty (Session.named ["tmp"] "s" "m").dir := List.forall_mem_nil _
  constructor
  · obtain ⟨-, -, -, hpublished, -⟩ := cleaned_up hfresh (by simp) play_launched
    obtain ⟨-, -, before, after, j₁, j₂, hsplit, hearly, -, hmissing, -⟩ := hpublished _ _ rfl
    exact ⟨rfl, before, after, j₁, hsplit, hearly, hmissing⟩
  · have hrest : (launched []).play [.put ["tmp", "s-hls", "1.ts"] (.file []), .destroy,
        .step .stop, .remove, .step .stopped] =
        some ⟨⟨["tmp"], ⟨[(["tmp"], .dir)]⟩, true, none, []⟩, .returned (.ok ()), false⟩ := rfl
    obtain ⟨hcleared, -, hsilent, -⟩ := cleaned_up hfresh (by simp [Session.named])
      (Runs.foldlM_append_eq_some.mpr ⟨_, play_launched, hrest⟩)
    have hgone := hcleared ⟨⟨_, rfl⟩, rfl⟩
    exact ⟨_, hrest, hsilent (.inr (by simp)), hgone _ (List.prefix_refl _),
      hgone _ (List.prefix_append _ ["pipe-audio.fifo"])⟩

end Job

end Headend.Hls
