import Mathlib.Data.BitVec
import Mathlib.Data.Nat.ModEq
import Mathlib.Data.Nat.Prime.Basic

/-!
Hashes that multiply the state by a constant and then xor the next input into it: what keeps
two inputs apart when the constant is odd and its multiples stay away from zero.
-/

namespace EsphomeNativeApi.MultiplyXor

variable {w k : ℕ} {p h h' b b' u v : BitVec w} {input input' : List (BitVec w)}

def step (p h b : BitVec w) : BitVec w := h * p ^^^ b

def hash (p h : BitVec w) (input : List (BitVec w)) : BitVec w := input.foldl (step p) h

@[simp] theorem hash_nil : hash p h [] = h := rfl

@[simp] theorem hash_cons : hash p h (b :: input) = hash p (step p h b) input := rfl

theorem toNat_hash :
    (hash p h input).toNat =
      (input.map BitVec.toNat).foldl (fun hash b => hash * p.toNat % 2 ^ w ^^^ b) h.toNat := by
  induction input generalizing h with
  | nil => rfl
  | cons b input ih => rw [hash_cons, ih, step, BitVec.toNat_xor, BitVec.toNat_mul, List.map_cons, List.foldl_cons]

theorem step_input_injective : Function.Injective (step p h) := by
  intro b b' heq
  exact (BitVec.xor_right_inj (h * p)).mp heq

theorem mul_injective (hp : p.toNat % 2 = 1) (heq : u * p = v * p) : u = v := by
  apply BitVec.eq_of_toNat_eq
  have hcoprime : Nat.gcd (2 ^ w) p.toNat = 1 := by
    apply Nat.Coprime.pow_left
    exact Nat.coprime_two_left.mpr (Nat.odd_iff.mpr hp)
  have hmod : u.toNat * p.toNat ≡ v.toNat * p.toNat [MOD 2 ^ w] := by
    rw [Nat.ModEq, ← BitVec.toNat_mul, ← BitVec.toNat_mul, heq]
  have hcancel := Nat.ModEq.cancel_right_of_coprime hcoprime hmod
  rwa [Nat.ModEq, Nat.mod_eq_of_lt u.isLt, Nat.mod_eq_of_lt v.isLt] at hcancel

theorem step_state_injective (hp : p.toNat % 2 = 1) (heq : step p h b = step p h' b) : h = h' :=
  mul_injective hp ((BitVec.xor_left_inj b).mp heq)

theorem hash_state_injective (hp : p.toNat % 2 = 1) (heq : hash p h input = hash p h' input) : h = h' := by
  induction input generalizing h h' with
  | nil => exact heq
  | cons b input ih => exact step_state_injective hp (ih heq)

theorem div_eq_of_xor_lt (hxor : (u ^^^ v).toNat < 2 ^ k) : u.toNat / 2 ^ k = v.toNat / 2 ^ k := by
  have hzero : u >>> k ^^^ v >>> k = 0#w := by
    apply BitVec.eq_of_toNat_eq
    rw [← BitVec.ushiftRight_xor_distrib, BitVec.toNat_ushiftRight, Nat.shiftRight_eq_div_pow,
      Nat.div_eq_of_lt hxor, BitVec.toNat_ofNat, Nat.zero_mod]
  have hshift := congrArg BitVec.toNat (BitVec.xor_eq_zero_iff.mp hzero)
  rwa [BitVec.toNat_ushiftRight, BitVec.toNat_ushiftRight, Nat.shiftRight_eq_div_pow,
    Nat.shiftRight_eq_div_pow] at hshift

theorem toNat_lt_add_of_xor_lt (hxor : (u ^^^ v).toNat < 2 ^ k) : u.toNat < v.toNat + 2 ^ k := by
  have hdiv := div_eq_of_xor_lt hxor
  have hu := Nat.div_add_mod u.toNat (2 ^ k)
  have hv := Nat.div_add_mod v.toNat (2 ^ k)
  have hlt := Nat.mod_lt u.toNat (Nat.two_pow_pos k)
  rw [hdiv] at hu
  omega

/-- Multiplied by the constant, states that differ only below bit `k` differ above it. -/
def Separates (p : BitVec w) (k : ℕ) : Prop :=
  ∀ u v : BitVec w, u ≠ v → (u ^^^ v).toNat < 2 ^ k → 2 ^ k ≤ (u * p ^^^ v * p).toNat

theorem le_xor_mul_of_lt (hlow : 2 ^ k ≤ p.toNat) (hhigh : (2 ^ k - 1) * p.toNat + 2 ^ k ≤ 2 ^ w)
    (hlt : v.toNat < u.toNat) (hxor : (u ^^^ v).toNat < 2 ^ k) : 2 ^ k ≤ (u * p ^^^ v * p).toNat := by
  by_contra hnear
  obtain ⟨d, hd⟩ : ∃ d, u.toNat = v.toNat + d := ⟨u.toNat - v.toNat, by omega⟩
  have hdk : d ≤ 2 ^ k - 1 := by
    have := toNat_lt_add_of_xor_lt hxor
    omega
  -- the difference of the products is a small multiple of the constant
  have hmul : (u * p).toNat = ((v * p).toNat + d * p.toNat) % 2 ^ w := by
    rw [BitVec.toNat_mul, BitVec.toNat_mul, hd, Nat.add_mul, Nat.mod_add_mod]
  have hleast : p.toNat ≤ d * p.toNat := by
    apply Nat.le_mul_of_pos_left
    omega
  have hmost : d * p.toNat ≤ (2 ^ k - 1) * p.toNat := Nat.mul_le_mul_right _ hdk
  -- so neither it nor its distance to the modulus is below `2 ^ k`
  have hup := toNat_lt_add_of_xor_lt (not_le.mp hnear)
  have hdown : (v * p).toNat < (u * p).toNat + 2 ^ k := by
    apply toNat_lt_add_of_xor_lt
    rw [BitVec.xor_comm]
    exact not_le.mp hnear
  have hv := (v * p).isLt
  rcases lt_or_ge ((v * p).toNat + d * p.toNat) (2 ^ w) with hsmall | hlarge
  · rw [Nat.mod_eq_of_lt hsmall] at hmul
    omega
  · rw [Nat.mod_eq_sub_mod hlarge, Nat.mod_eq_of_lt (by omega)] at hmul
    omega

theorem separates_of_bounds (hlow : 2 ^ k ≤ p.toNat) (hhigh : (2 ^ k - 1) * p.toNat + 2 ^ k ≤ 2 ^ w) :
    Separates p k := by
  intro u v hne hxor
  rcases lt_or_gt_of_ne (mt BitVec.eq_of_toNat_eq hne) with hlt | hgt
  · rw [BitVec.xor_comm] at hxor ⊢
    exact le_xor_mul_of_lt hlow hhigh hlt hxor
  · exact le_xor_mul_of_lt hlow hhigh hgt hxor

theorem xor_lt (hb : b.toNat < 2 ^ k) (hb' : b'.toNat < 2 ^ k) : (b ^^^ b').toNat < 2 ^ k := by
  rw [BitVec.toNat_xor]
  exact Nat.xor_lt_two_pow hb hb'

theorem xor_xor_xor_left : (u ^^^ b) ^^^ (u ^^^ b') = b ^^^ b' := by
  rw [BitVec.xor_comm u b, BitVec.xor_assoc, ← BitVec.xor_assoc u u, BitVec.xor_self, BitVec.zero_xor]

theorem xor_eq_of_xor_eq (heq : u ^^^ b = v ^^^ b') : u ^^^ v = b ^^^ b' := by
  calc
    u ^^^ v = (b ^^^ u) ^^^ (b ^^^ v) := xor_xor_xor_left.symm
    _ = (v ^^^ b') ^^^ (v ^^^ b) := by rw [BitVec.xor_comm b u, heq, BitVec.xor_comm b v]
    _ = b ^^^ b' := by rw [xor_xor_xor_left, BitVec.xor_comm]

theorem step_step_injective {c c' : BitVec w} (hp : Separates p k) (hb : b.toNat < 2 ^ k)
    (hb' : b'.toNat < 2 ^ k) (hc : c.toNat < 2 ^ k) (hc' : c'.toNat < 2 ^ k)
    (heq : step p (step p h b) c = step p (step p h b') c') : b = b' ∧ c = c' := by
  have hstate : step p h b = step p h b' := by
    by_contra hne
    have hxor : (step p h b ^^^ step p h b').toNat < 2 ^ k := by
      rw [step, step, xor_xor_xor_left]
      exact xor_lt hb hb'
    have hfar := hp _ _ hne hxor
    rw [xor_eq_of_xor_eq heq] at hfar
    exact not_lt.mpr hfar (xor_lt hc hc')
  rw [hstate] at heq
  exact ⟨step_input_injective hstate, step_input_injective heq⟩

/-- Inputs of one length below `2 ^ k` that differ at most at two places in a row and hash alike
are equal. -/
theorem eq_of_window (hodd : p.toNat % 2 = 1) (hp : Separates p k) (i : ℕ)
    (hinput : ∀ b ∈ input, b.toNat < 2 ^ k) (hinput' : ∀ b ∈ input', b.toNat < 2 ^ k)
    (hlength : input.length = input'.length)
    (hagree : ∀ j, j ≠ i → j ≠ i + 1 → input[j]? = input'[j]?)
    (heq : hash p h input = hash p h input') : input = input' := by
  induction i generalizing input input' h with
  | zero =>
    match input, input' with
    | [], [] => rfl
    | [b], [b'] => rw [step_input_injective heq]
    | b :: c :: rest, b' :: c' :: rest' =>
      have hrest : rest = rest' := by
        apply List.ext_getElem?
        intro j
        exact hagree (j + 2) (by omega) (by omega)
      subst hrest
      simp only [List.forall_mem_cons] at hinput hinput'
      obtain ⟨hb, hc, -⟩ := hinput
      obtain ⟨hb', hc', -⟩ := hinput'
      obtain ⟨rfl, rfl⟩ := step_step_injective hp hb hb' hc hc' (hash_state_injective hodd heq)
      rfl
  | succ i ih =>
    match input, input' with
    | [], [] => rfl
    | b :: rest, b' :: rest' =>
      have hhead := hagree 0 (by omega) (by omega)
      cases hhead
      rw [List.forall_mem_cons] at hinput hinput'
      rw [ih hinput.2 hinput'.2 (Nat.succ.inj hlength) ?_ heq]
      intro j hj hj'
      exact hagree (j + 1) (by omega) (by omega)

end EsphomeNativeApi.MultiplyXor
