import Mathlib

/-!
Runs of a system whose tasks take turns: the actions come one after another, in an order
that no task controls.
-/

namespace EsphomeNativeApi.Runs

variable {σ Action : Type} (step : σ → Action → Option σ)

def run (s : σ) : List Action → Option σ
  | [] => some s
  | action :: actions =>
    match step s action with
    | some t => run t actions
    | none => none

variable {step} {s t u : σ}

theorem run_cons_iff (action : Action) (actions : List Action) :
    run step s (action :: actions) = some t ↔ ∃ u, step s action = some u ∧ run step u actions = some t := by
  rw [run]
  cases step s action <;> simp

theorem run_append_iff (before after : List Action) :
    run step s (before ++ after) = some t ↔ ∃ u, run step s before = some u ∧ run step u after = some t := by
  induction before generalizing s with
  | nil => simp [run]
  | cons action before ih =>
    simp only [List.cons_append, run_cons_iff, ih]
    constructor
    · rintro ⟨v, hv, u, hu, ht⟩
      exact ⟨u, ⟨v, hv, hu⟩, ht⟩
    · rintro ⟨u, ⟨v, hv, hu⟩, ht⟩
      exact ⟨v, hv, u, hu, ht⟩

theorem run_append {before after : List Action} (hs : run step s before = some t)
    (ht : run step t after = some u) : run step s (before ++ after) = some u :=
  (run_append_iff before after).mpr ⟨t, hs, ht⟩

theorem run_snoc {before : List Action} {action : Action} (hs : run step s before = some t)
    (ht : step t action = some u) : run step s (before ++ [action]) = some u := by
  apply run_append hs
  apply (run_cons_iff action []).mpr
  exact ⟨u, ht, rfl⟩

theorem run_invariant (inv : σ → Prop) {actions : List Action} (h : run step s actions = some t)
    (hs : inv s) (hstep : ∀ action ∈ actions, ∀ u v, inv u → step u action = some v → inv v) : inv t := by
  induction actions generalizing s with
  | nil =>
    cases h
    exact hs
  | cons action actions ih =>
    obtain ⟨u, hu, h⟩ := (run_cons_iff action actions).mp h
    exact ih h (hstep action List.mem_cons_self s u hs hu)
      fun a ha => hstep a (List.mem_cons_of_mem action ha)

theorem run_history (inv : List Action → σ → Prop) {actions : List Action}
    (h : run step s actions = some t) (hs : inv [] s)
    (hstep : ∀ past action u v, run step s past = some u → inv past u → step u action = some v →
      inv (past ++ [action]) v) : inv actions t := by
  induction actions using List.reverseRecOn generalizing t with
  | nil =>
    cases h
    exact hs
  | append_singleton past action ih =>
    obtain ⟨u, hu, h⟩ := (run_append_iff past [action]).mp h
    obtain ⟨v, hv, h⟩ := (run_cons_iff action []).mp h
    cases h
    exact hstep past action u _ hu (ih hu) hv

theorem run_measure (μ : σ → ℕ) (p : Action → Bool) {actions : List Action} (h : run step s actions = some t)
    (hstep : ∀ action u v, step u action = some v → μ v + (if p action then 1 else 0) ≤ μ u) :
    actions.countP p + μ t ≤ μ s := by
  induction actions generalizing s with
  | nil =>
    cases h
    simp
  | cons action actions ih =>
    obtain ⟨u, hu, h⟩ := (run_cons_iff action actions).mp h
    have hfirst := hstep action s u hu
    have hrest := ih h
    rw [List.countP_cons]
    omega

/-- A run on a fixed input is checked by evaluating it. -/
theorem run_check {P : σ → Prop} [DecidablePred P] {actions : List Action}
    (h : (run step s actions).any (fun t => P t) = true) : ∃ t, run step s actions = some t ∧ P t := by
  obtain ⟨t, ht, hp⟩ := (Option.any_eq_true _ _).mp h
  exact ⟨t, ht, of_decide_eq_true hp⟩

def Reaches (step : σ → Action → Option σ) (allowed : Action → Prop) (s t : σ) : Prop :=
  ∃ actions, (∀ action ∈ actions, allowed action) ∧ run step s actions = some t

section Reaches

variable {allowed wider : Action → Prop}

theorem Reaches.refl (s : σ) : Reaches step allowed s s :=
  ⟨[], List.forall_mem_nil _, rfl⟩

theorem Reaches.single (action : Action) (ha : allowed action) (h : step s action = some t) :
    Reaches step allowed s t := by
  refine ⟨[action], ?_, ?_⟩
  · simpa using ha
  · exact (run_cons_iff action []).mpr ⟨t, h, rfl⟩

theorem Reaches.trans (hs : Reaches step allowed s t) (ht : Reaches step allowed t u) :
    Reaches step allowed s u := by
  obtain ⟨before, hbefore, hs⟩ := hs
  obtain ⟨after, hafter, ht⟩ := ht
  exact ⟨before ++ after, List.forall_mem_append.mpr ⟨hbefore, hafter⟩, run_append hs ht⟩

theorem Reaches.mono (h : Reaches step allowed s t) (hwider : ∀ action, allowed action → wider action) :
    Reaches step wider s t := by
  obtain ⟨actions, hallowed, hrun⟩ := h
  exact ⟨actions, fun action hm => hwider action (hallowed action hm), hrun⟩

/-- A number that grows by at most one in a step takes every value on its way. -/
theorem Reaches.crosses (μ : σ → ℕ)
    (hstep : ∀ action u v, allowed action → step u action = some v → μ v ≤ μ u + 1)
    (h : Reaches step allowed s t) {n : ℕ} (hs : μ s ≤ n) (ht : n ≤ μ t) :
    ∃ u, Reaches step allowed s u ∧ μ u = n := by
  obtain ⟨actions, hallowed, hrun⟩ := h
  induction actions generalizing s with
  | nil =>
    cases hrun
    exact ⟨_, .refl _, le_antisymm hs ht⟩
  | cons action actions ih =>
    obtain ⟨v, hv, hrun⟩ := (run_cons_iff action actions).mp hrun
    obtain ⟨ha, hallowed⟩ := List.forall_mem_cons.mp hallowed
    by_cases hn : μ s = n
    · exact ⟨s, .refl s, hn⟩
    · have hfirst := hstep action s v ha hv
      obtain ⟨u, hu, hm⟩ := ih (s := v) (by omega) hallowed hrun
      exact ⟨u, .trans (.single action ha hv) hu, hm⟩

end Reaches

end EsphomeNativeApi.Runs
