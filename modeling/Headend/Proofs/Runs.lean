/-!
# Runs of a partial step

A history is played by a step that may be impossible: `es.foldlM step s` is the state after the
events `es`, if each of them can happen in its turn.
-/

namespace Headend.Runs

variable {σ ε : Type} {step : σ → ε → Option σ} {s t : σ} {e : ε} {es es' : List ε}

theorem foldlM_append_eq_some : (es ++ es').foldlM step s = some t ↔
    ∃ between, es.foldlM step s = some between ∧ es'.foldlM step between = some t := by
  rw [List.foldlM_append]
  exact Option.bind_eq_some_iff

theorem foldlM_cons_eq_some : (e :: es).foldlM step s = some t ↔
    ∃ next, step s e = some next ∧ es.foldlM step next = some t := by
  rw [List.foldlM_cons]
  exact Option.bind_eq_some_iff

theorem foldlM_concat_eq_some : (es ++ [e]).foldlM step s = some t ↔
    ∃ last, es.foldlM step s = some last ∧ step last e = some t := by
  rw [foldlM_append_eq_some]
  simp [List.foldlM_cons]

/-- What every one of the events respects, they do together. -/
theorem foldlM_invariant {P : σ → Prop}
    (hkeeps : ∀ {s t : σ} {e : ε}, e ∈ es → P s → step s e = some t → P t)
    (h : P s) (hplayed : es.foldlM step s = some t) : P t := by
  induction es generalizing s with
  | nil => exact Option.some.inj hplayed ▸ h
  | cons e es ih =>
    obtain ⟨next, hstepped, hrest⟩ := foldlM_cons_eq_some.mp hplayed
    have hlater {s t : σ} {e' : ε} (hmem : e' ∈ es) := @hkeeps s t e' (.tail e hmem)
    exact ih hlater (hkeeps List.mem_cons_self h hstepped) hrest

/-- What comes to hold does so at some event. -/
theorem exists_turn {P : σ → Prop} (hstart : ¬ P s) (hstop : P t)
    (hplayed : es.foldlM step s = some t) :
    ∃ before e after s₁ s₂, es = before ++ e :: after ∧ before.foldlM step s = some s₁ ∧
      step s₁ e = some s₂ ∧ ¬ P s₁ ∧ P s₂ := by
  induction es generalizing s with
  | nil => exact absurd (Option.some.inj hplayed ▸ hstop) hstart
  | cons e es ih =>
    obtain ⟨next, hstepped, hrest⟩ := foldlM_cons_eq_some.mp hplayed
    by_cases hnow : P next
    · exact ⟨[], e, es, s, next, rfl, rfl, hstepped, hstart, hnow⟩
    · obtain ⟨before, e', after, s₁, s₂, rfl, hearly, hturn, hoff, hon⟩ := ih hnow hrest
      refine ⟨e :: before, e', after, s₁, s₂, rfl, ?_, hturn, hoff, hon⟩
      exact foldlM_cons_eq_some.mpr ⟨next, hstepped, hearly⟩

end Headend.Runs
