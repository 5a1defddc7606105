import EsphomeNativeApi.Runs

/-!
Simulations: what one system does, step by step, another one does in none, one or several
steps that show the same.
-/

namespace EsphomeNativeApi.Simulations

open Runs

variable {σ τ α β δ : Type}

structure Simulation (step : σ → α → Option σ) (spec : τ → β → Option τ) (shown : α → List δ)
    (shownBySpec : β → List δ) (R : σ → τ → Prop) : Prop where
  matched : ∀ {s s' t action}, R s t → step s action = some s' →
    ∃ events t', run spec t events = some t' ∧ events.flatMap shownBySpec = shown action ∧ R s' t'

namespace Simulation

variable {step : σ → α → Option σ} {spec : τ → β → Option τ} {shown : α → List δ}
  {shownBySpec : β → List δ} {R : σ → τ → Prop} {s s' : σ} {t : τ} {actions : List α}

theorem run_matched (h : Simulation step spec shown shownBySpec R) (hR : R s t)
    (hrun : run step s actions = some s') :
    ∃ events t', run spec t events = some t' ∧ events.flatMap shownBySpec = actions.flatMap shown ∧ R s' t' := by
  induction actions generalizing s t with
  | nil =>
    cases hrun
    exact ⟨[], t, rfl, rfl, hR⟩
  | cons action actions ih =>
    obtain ⟨u, hu, hrun⟩ := (run_cons_iff action actions).mp hrun
    obtain ⟨events, v, hv, hshown, hR⟩ := h.matched hR hu
    obtain ⟨more, t', ht', hmore, hR⟩ := ih hR hrun
    refine ⟨events ++ more, t', run_append hv ht', ?_, hR⟩
    rw [List.flatMap_append, hshown, hmore, List.flatMap_cons]

/-- What holds of every state that the specification can reach holds of the state that it
shows for the implementation. -/
theorem history (h : Simulation step spec shown shownBySpec R) (hR : R s t)
    (hrun : run step s actions = some s') (inv : List β → τ → Prop) (hinit : inv [] t)
    (hstep : ∀ past event u v, inv past u → spec u event = some v → inv (past ++ [event]) v) :
    ∃ events t', run spec t events = some t' ∧ events.flatMap shownBySpec = actions.flatMap shown ∧
      R s' t' ∧ inv events t' := by
  obtain ⟨events, t', ht', hshown, hR⟩ := h.run_matched hR hrun
  exact ⟨events, t', ht', hshown, hR,
    run_history inv ht' hinit fun past event u v _ hu hv => hstep past event u v hu hv⟩

end Simulation

end EsphomeNativeApi.Simulations
