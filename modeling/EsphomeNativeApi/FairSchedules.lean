import EsphomeNativeApi.Channels
import EsphomeNativeApi.Runs

/-!
Endless schedules of a system whose tasks take turns, and what fairness brings about in
them.
-/

namespace EsphomeNativeApi.FairSchedules

open Filter Channels Runs

variable {σ Action : Type} {step : σ → Action → Option σ}

def advance (step : σ → Action → Option σ) (s : σ) : Option Action → Option σ
  | none => some s
  | some action => step s action

/-- Where there is no action, nobody moves. -/
structure Schedule (step : σ → Action → Option σ) where
  state : ℕ → σ
  action : ℕ → Option Action
  next : ∀ n, advance step (state n) (action n) = some (state (n + 1))

def Enabled (step : σ → Action → Option σ) (p : Action → Prop) (s : σ) : Prop :=
  ∃ action, p action ∧ (step s action).isSome

namespace Schedule

variable (S : Schedule step) {p : Action → Prop}

def Takes (p : Action → Prop) (n : ℕ) : Prop := ∃ action, S.action n = some action ∧ p action

def WeaklyFair (p : Action → Prop) : Prop :=
  (∀ᶠ n in atTop, Enabled step p (S.state n)) → ∃ᶠ n in atTop, S.Takes p n

def StronglyFair (p : Action → Prop) : Prop :=
  (∃ᶠ n in atTop, Enabled step p (S.state n)) → ∃ᶠ n in atTop, S.Takes p n

theorem moves (n : ℕ) :
    (S.action n = none ∧ S.state (n + 1) = S.state n) ∨
      ∃ action, S.action n = some action ∧ step (S.state n) action = some (S.state (n + 1)) := by
  have hnext := S.next n
  cases ha : S.action n with
  | none =>
    rw [ha] at hnext
    exact .inl ⟨rfl, (Option.some.inj hnext).symm⟩
  | some action =>
    rw [ha] at hnext
    exact .inr ⟨action, rfl, hnext⟩

theorem run_to (n : ℕ) : ∃ actions, run step (S.state 0) actions = some (S.state n) := by
  induction n with
  | zero => exact ⟨[], rfl⟩
  | succ n ih =>
    obtain ⟨actions, h⟩ := ih
    rcases S.moves n with ⟨-, hrests⟩ | ⟨action, -, hstep⟩
    · exact ⟨actions, by rw [hrests]; exact h⟩
    · exact ⟨actions ++ [action], run_snoc h hstep⟩

theorem reaches {allowed : Action → Prop} (hallowed : ∀ n action, S.action n = some action → allowed action)
    (n : ℕ) : Reaches step allowed (S.state 0) (S.state n) := by
  induction n with
  | zero => exact .refl _
  | succ n ih =>
    rcases S.moves n with ⟨-, hrests⟩ | ⟨action, haction, hmoves⟩
    · exact hrests ▸ ih
    · exact ih.trans (.single action (hallowed n action haction) hmoves)

theorem always (P : σ → Prop) (N : ℕ) (h : P (S.state N))
    (hstep : ∀ n action, N ≤ n → P (S.state n) → step (S.state n) action = some (S.state (n + 1)) →
      P (S.state (n + 1))) : ∀ n, N ≤ n → P (S.state n) := by
  intro n hn
  induction n, hn using Nat.le_induction with
  | base => exact h
  | succ n hn ih =>
    rcases S.moves n with ⟨-, hrests⟩ | ⟨action, -, hmoves⟩
    · rw [hrests]
      exact ih
    · exact hstep n action hn ih hmoves

/-- A goal is reached if, short of it, no step raises the rank and those that are taken
again and again lower it. -/
theorem reaches_of_rank {α : Type} [Preorder α] [WellFoundedLT α] (rank : σ → α) (goal : σ → Prop) (N : ℕ)
    (hle : ∀ n action, N ≤ n → ¬ goal (S.state n) → step (S.state n) action = some (S.state (n + 1)) →
      goal (S.state (n + 1)) ∨ rank (S.state (n + 1)) ≤ rank (S.state n))
    (hlt : ∀ n action, N ≤ n → ¬ goal (S.state n) → step (S.state n) action = some (S.state (n + 1)) →
      p action → goal (S.state (n + 1)) ∨ rank (S.state (n + 1)) < rank (S.state n))
    (hoften : ∃ᶠ n in atTop, S.Takes p n) : ∃ n, N ≤ n ∧ goal (S.state n) := by
  by_contra hnever
  have hnot : ∀ n, N ≤ n → ¬ goal (S.state n) := fun n hn hg => hnever ⟨n, hn, hg⟩
  have hfalls : ∀ n, N ≤ n → rank (S.state (n + 1)) ≤ rank (S.state n) := by
    intro n hn
    rcases S.moves n with ⟨-, hrests⟩ | ⟨action, -, hmoves⟩
    · rw [hrests]
    · exact (hle n action hn (hnot n hn) hmoves).resolve_left (hnot (n + 1) (by omega))
  have hchain : ∀ n, N ≤ n → ∀ m, n ≤ m → rank (S.state m) ≤ rank (S.state n) := by
    intro n hn m hm
    induction m, hm using Nat.le_induction with
    | base => exact le_refl _
    | succ m hm ih => exact (hfalls m (by omega)).trans ih
  have hlow : ∀ a n, N ≤ n → rank (S.state n) = a → False := by
    intro a
    induction a using WellFoundedLT.induction with
    | ind a ih =>
      intro n hn ha
      obtain ⟨m, hm, action, haction, hp⟩ := frequently_atTop.mp hoften n
      have hN : N ≤ m := hn.trans hm
      rcases S.moves m with ⟨hnone, -⟩ | ⟨action', haction', hmoves⟩
      · rw [hnone] at haction
        cases haction
      · cases haction.symm.trans haction'
        have hdrops := (hlt m action hN (hnot m hN) hmoves hp).resolve_left (hnot (m + 1) (by omega))
        exact ih _ (ha ▸ hdrops.trans_le (hchain n hn m hm)) (m + 1) (by omega) rfl
  exact hlow _ N (le_refl N) rfl

/-- A goal is reached if, short of it, the task has something to do that brings it nearer. -/
theorem reaches_of_weaklyFair (hfair : S.WeaklyFair p) (rank : σ → ℕ) (goal : σ → Prop) (N : ℕ)
    (henabled : ∀ n, N ≤ n → ¬ goal (S.state n) → Enabled step p (S.state n))
    (hle : ∀ n action, N ≤ n → ¬ goal (S.state n) → step (S.state n) action = some (S.state (n + 1)) →
      rank (S.state (n + 1)) ≤ rank (S.state n))
    (hlt : ∀ n action, N ≤ n → ¬ goal (S.state n) → step (S.state n) action = some (S.state (n + 1)) →
      p action → rank (S.state (n + 1)) < rank (S.state n)) : ∃ n, N ≤ n ∧ goal (S.state n) := by
  by_contra hnever
  have hnot : ∀ n, N ≤ n → ¬ goal (S.state n) := fun n hn hg => hnever ⟨n, hn, hg⟩
  have hoften : ∃ᶠ n in atTop, S.Takes p n := by
    apply hfair
    apply eventually_atTop.mpr
    exact ⟨N, fun n hn => henabled n hn (hnot n hn)⟩
  apply hnever
  exact S.reaches_of_rank rank goal N (fun n action hn hg hmoves => .inr (hle n action hn hg hmoves))
    (fun n action hn hg hmoves hp => .inr (hlt n action hn hg hmoves hp)) hoften

theorem catches_up {α : Type} (hfair : S.WeaklyFair p) (channel : σ → Broadcast α) (N : ℕ) {sent : List α}
    (hsent : ∀ n, N ≤ n → (channel (S.state n)).sent = sent)
    (henabled : ∀ n, N ≤ n → (channel (S.state n)).cursor < sent.length → Enabled step p (S.state n))
    (hkept : ∀ n action, N ≤ n → step (S.state n) action = some (S.state (n + 1)) →
      (channel (S.state n)).cursor ≤ (channel (S.state (n + 1))).cursor)
    (hmoves : ∀ n action, N ≤ n → step (S.state n) action = some (S.state (n + 1)) → p action →
      (channel (S.state n)).cursor < (channel (S.state n)).sent.length →
        (channel (S.state n)).cursor < (channel (S.state (n + 1))).cursor) :
    ∀ᶠ n in atTop, sent.length ≤ (channel (S.state n)).cursor := by
  obtain ⟨n, hn, hreached⟩ := S.reaches_of_weaklyFair hfair (fun u => sent.length - (channel u).cursor)
    (fun u => sent.length ≤ (channel u).cursor) N (fun n hn hbehind => henabled n hn (not_le.mp hbehind))
    (fun n action hn _ hstep => Nat.sub_le_sub_left (hkept n action hn hstep) _) (by
      intro n action hn hbehind hstep hp
      have hfurther := hmoves n action hn hstep hp (by rw [hsent n hn]; exact not_le.mp hbehind)
      omega)
  apply eventually_atTop.mpr
  refine ⟨n, S.always (fun u => sent.length ≤ (channel u).cursor) n hreached ?_⟩
  intro m action hm ih hstep
  exact ih.trans (hkept m action (hn.trans hm) hstep)

/-- What is taken only finitely often, fairness notwithstanding, is disabled in the end. -/
theorem eventually_disabled (hfair : S.StronglyFair p) (rank : σ → ℕ)
    (hle : ∀ n action, step (S.state n) action = some (S.state (n + 1)) →
      rank (S.state (n + 1)) ≤ rank (S.state n))
    (hlt : ∀ n action, step (S.state n) action = some (S.state (n + 1)) → p action →
      rank (S.state (n + 1)) < rank (S.state n)) :
    ∀ᶠ n in atTop, ¬ Enabled step p (S.state n) := by
  by_contra hnot
  have hoften := hfair (not_eventually.mp hnot |>.mono fun n => not_not.mp)
  obtain ⟨-, -, hfalse⟩ := S.reaches_of_rank rank (fun _ => False) 0
    (fun n action _ _ hmoves => .inr (hle n action hmoves))
    (fun n action _ _ hmoves hp => .inr (hlt n action hmoves hp)) hoften
  exact hfalse

/-- The same schedule, `k` moves later. -/
structure Ends (S T : Schedule step) (k : ℕ) : Prop where
  state : ∀ n, S.state (n + k) = T.state n
  action : ∀ n, S.action (n + k) = T.action n

theorem frequently_later {P Q : ℕ → Prop} {k : ℕ} (h : ∀ n, P (n + k) ↔ Q n) :
    (∃ᶠ n in atTop, P n) ↔ ∃ᶠ n in atTop, Q n := by
  conv_lhs => rw [← map_add_atTop_eq_nat k, frequently_map]
  exact frequently_congr (.of_forall h)

theorem Ends.frequently_takes {S T : Schedule step} {k : ℕ} (h : S.Ends T k)
    (htakes : ∃ᶠ n in atTop, T.Takes p n) : ∃ᶠ n in atTop, S.Takes p n := by
  have hlater : ∀ n, S.Takes p (n + k) ↔ T.Takes p n := fun n => by simp only [Takes, h.action]
  exact (frequently_later hlater).mpr htakes

theorem Ends.stronglyFair {S T : Schedule step} {k : ℕ} (h : S.Ends T k) (hfair : T.StronglyFair p) :
    S.StronglyFair p := by
  intro henabled
  apply h.frequently_takes
  apply hfair
  exact (frequently_later fun n => by rw [h.state]).mp henabled

theorem Ends.weaklyFair {S T : Schedule step} {k : ℕ} (h : S.Ends T k) (hfair : T.WeaklyFair p) :
    S.WeaklyFair p := by
  intro henabled
  apply h.frequently_takes
  apply hfair
  rw [← map_add_atTop_eq_nat k, eventually_map] at henabled
  exact henabled.mono fun n hn => h.state n ▸ hn

def cons (s : σ) (action : Action) (h : step s action = some (S.state 0)) : Schedule step where
  state
    | 0 => s
    | n + 1 => S.state n
  action
    | 0 => some action
    | n + 1 => S.action n
  next
    | 0 => h
    | n + 1 => S.next n

theorem exists_prepend {s : σ} {actions : List Action} (h : run step s actions = some (S.state 0)) :
    ∃ T : Schedule step, T.state 0 = s ∧ T.Ends S actions.length ∧
      ∀ n action, T.action n = some action → action ∈ actions ∨ ∃ m, S.action m = some action := by
  induction actions generalizing s with
  | nil =>
    cases h
    exact ⟨S, rfl, ⟨fun _ => rfl, fun _ => rfl⟩, fun n action haction => .inr ⟨n, haction⟩⟩
  | cons first actions ih =>
    obtain ⟨u, hu, h⟩ := (run_cons_iff first actions).mp h
    obtain ⟨T, rfl, hT, hactions⟩ := ih h
    refine ⟨T.cons s first hu, rfl, ⟨fun n => hT.state n, fun n => hT.action n⟩, ?_⟩
    intro n action haction
    cases n with
    | zero =>
      cases haction
      exact .inl List.mem_cons_self
    | succ n => exact (hactions n action haction).imp_left (List.mem_cons_of_mem first)

theorem stronglyFair_of_disabled (h : ∀ n, ¬ Enabled step p (S.state n)) : S.StronglyFair p :=
  fun henabled => absurd henabled.exists.choose_spec (h _)

theorem weaklyFair_of_disabled (h : ∀ n, ¬ Enabled step p (S.state n)) : S.WeaklyFair p :=
  fun henabled => absurd henabled.exists.choose_spec (h _)

/-- Two moves that lead back to where they start, forever. -/
def alternate {s t : σ} {out back : Action} (hout : step s out = some t) (hback : step t back = some s) :
    Schedule step where
  state n := if n % 2 = 0 then s else t
  action n := some (if n % 2 = 0 then out else back)
  next n := by
    rcases Nat.mod_two_eq_zero_or_one n with h | h
    · have hodd : (n + 1) % 2 ≠ 0 := by omega
      simp only [h, hodd, ↓reduceIte]
      exact hout
    · have heven : (n + 1) % 2 = 0 := by omega
      simp only [h, heven, one_ne_zero, ↓reduceIte]
      exact hback

theorem alternate_disabled {s t : σ} {out back : Action} (hout : step s out = some t) (hback : step t back = some s)
    (hs : ¬ Enabled step p s) (ht : ¬ Enabled step p t) (n : ℕ) :
    ¬ Enabled step p ((alternate hout hback).state n) := by
  simp only [alternate]
  split_ifs
  · exact hs
  · exact ht

theorem exists_alternating {s t : σ} {out back : Action} (hout : step s out = some t) (hback : step t back = some s) :
    ∃ S : Schedule step, S.state 0 = s ∧
      (∀ p : Action → Prop, p out → p back → S.WeaklyFair p) ∧
      (∀ p, ¬ Enabled step p s → ¬ Enabled step p t → S.StronglyFair p ∧ S.WeaklyFair p) ∧
      ∀ n action, S.action n = some action → action = out ∨ action = back := by
  refine ⟨alternate hout hback, rfl, ?_, ?_, ?_⟩
  · intro p hpout hpback _
    apply Frequently.of_forall
    intro n
    by_cases h : n % 2 = 0
    · exact ⟨out, by simp [alternate, h], hpout⟩
    · exact ⟨back, by simp [alternate, h], hpback⟩
  · intro p hs ht
    have hdisabled := alternate_disabled (p := p) hout hback hs ht
    exact ⟨stronglyFair_of_disabled _ hdisabled, weaklyFair_of_disabled _ hdisabled⟩
  · intro n action haction
    simp only [alternate, Option.some.injEq] at haction
    split_ifs at haction
    · exact .inl haction.symm
    · exact .inr haction.symm

section Parts

variable {τ Part : Type} {step' : τ → Part → Option τ} {q : Part → Prop}

/-- The schedule of a part of the system, given what each move is to the part. -/
def project (S : Schedule step) (part : σ → τ) (move : σ → Action → Option Part)
    (h : ∀ n action, step (S.state n) action = some (S.state (n + 1)) →
      advance step' (part (S.state n)) (move (S.state n) action) = some (part (S.state (n + 1)))) :
    Schedule step' where
  state n := part (S.state n)
  action n := (S.action n).bind (move (S.state n))
  next n := by
    rcases S.moves n with ⟨hnone, hrests⟩ | ⟨action, haction, hmoves⟩
    · rw [hnone, hrests]
      rfl
    · rw [haction]
      exact h n action hmoves

variable {S} {part : σ → τ} {move : σ → Action → Option Part}
  {h : ∀ n action, step (S.state n) action = some (S.state (n + 1)) →
    advance step' (part (S.state n)) (move (S.state n) action) = some (part (S.state (n + 1)))}

theorem project_takes (htakes : ∀ n action, p action → ∃ moved, move (S.state n) action = some moved ∧ q moved)
    {n : ℕ} (hp : S.Takes p n) : (S.project part move h).Takes q n := by
  obtain ⟨action, haction, hp⟩ := hp
  obtain ⟨moved, hmoved, hq⟩ := htakes n action hp
  exact ⟨moved, by simp [project, haction, hmoved], hq⟩

theorem project_stronglyFair (hfair : S.StronglyFair p)
    (henabled : ∀ n, Enabled step' q (part (S.state n)) → Enabled step p (S.state n))
    (htakes : ∀ n action, p action → ∃ moved, move (S.state n) action = some moved ∧ q moved) :
    (S.project part move h).StronglyFair q :=
  fun hturns => (hfair (hturns.mono henabled)).mono fun _ => project_takes htakes

theorem project_weaklyFair (hfair : S.WeaklyFair p)
    (henabled : ∀ n, Enabled step' q (part (S.state n)) → Enabled step p (S.state n))
    (htakes : ∀ n action, p action → ∃ moved, move (S.state n) action = some moved ∧ q moved) :
    (S.project part move h).WeaklyFair q :=
  fun hturns => (hfair (hturns.mono henabled)).mono fun _ => project_takes htakes

end Parts

def rest (s : σ) : Schedule step := ⟨fun _ => s, fun _ => none, fun _ => rfl⟩

end Schedule

end EsphomeNativeApi.FairSchedules
