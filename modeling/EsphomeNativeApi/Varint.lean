import EsphomeNativeApi.RustSemantics

/-!
Base-128 varints: seven bits a byte, the least significant group first, with the
high bit set on every byte but the last.
-/

namespace EsphomeNativeApi.Varint

open RustSemantics

def value : Bytes → ℕ
  | [] => 0
  | b :: bs => b.toNat % 128 + 128 * value bs

def Terminated : Bytes → Prop
  | [] => False
  | [b] => b.toNat < 128
  | b :: bs => 128 ≤ b.toNat ∧ Terminated bs

def encode (n : ℕ) : Bytes :=
  if n < 128 then [UInt8.ofNat n] else UInt8.ofNat (n % 128 + 128) :: encode (n / 128)

inductive Split where
  | incomplete
  | tooLong
  | done (marker rest : Bytes)

def split : ℕ → Bytes → Split
  | 0, _ => .tooLong
  | _ + 1, [] => .incomplete
  | limit + 1, b :: bs =>
    if b.toNat < 128 then .done [b] bs
    else match split limit bs with
      | .done marker rest => .done (b :: marker) rest
      | .incomplete => .incomplete
      | .tooLong => .tooLong

theorem terminated_cons (b : UInt8) (bs : Bytes) (h : 128 ≤ b.toNat) :
    Terminated (b :: bs) ↔ Terminated bs := by
  cases bs with
  | nil => simp only [Terminated, iff_false]; omega
  | cons c cs => simp [Terminated, h]

theorem split_append (limit : ℕ) (marker t : Bytes) (hm : Terminated marker)
    (hl : marker.length ≤ limit) : split limit (marker ++ t) = .done marker t := by
  induction limit generalizing marker with
  | zero => cases marker <;> simp_all [Terminated]
  | succ limit ih =>
    match marker, hm with
    | [b], hb => simp only [Terminated] at hb; simp [split, hb]
    | b :: c :: bs, ⟨hb, hbs⟩ =>
      have hlen : (c :: bs).length ≤ limit := by simpa using hl
      have hb' : ¬ b.toNat < 128 := by omega
      rw [List.cons_append, split, if_neg hb', ih (c :: bs) hbs hlen]

theorem split_done (limit : ℕ) (s marker rest : Bytes) (h : split limit s = .done marker rest) :
    s = marker ++ rest ∧ Terminated marker ∧ marker.length ≤ limit := by
  induction limit generalizing s marker with
  | zero => simp [split] at h
  | succ limit ih =>
    cases s with
    | nil => simp [split] at h
    | cons b bs =>
      rw [split] at h
      split_ifs at h with hb
      · cases h
        exact ⟨rfl, hb, by simp⟩
      · cases hs : split limit bs with
        | incomplete => simp [hs] at h
        | tooLong => simp [hs] at h
        | done m r =>
          simp only [hs, Split.done.injEq] at h
          obtain ⟨rfl, rfl⟩ := h
          obtain ⟨he, ht, hl⟩ := ih bs m hs
          refine ⟨by rw [he, List.cons_append], ?_, by simpa using hl⟩
          exact (terminated_cons b m (by omega)).mpr ht

theorem split_incomplete (limit : ℕ) (s : Bytes) (h : split limit s = .incomplete) :
    s.length < limit ∧ Terminated (s ++ [0]) := by
  induction limit generalizing s with
  | zero => simp [split] at h
  | succ limit ih =>
    cases s with
    | nil => simp [Terminated]
    | cons b bs =>
      rw [split] at h
      split_ifs at h with hb
      cases hs : split limit bs with
      | tooLong => simp [hs] at h
      | done m r => simp [hs] at h
      | incomplete =>
        obtain ⟨hl, ht⟩ := ih bs hs
        constructor
        · simpa using hl
        · rw [List.cons_append]
          exact (terminated_cons b _ (by omega)).mpr ht

theorem split_tooLong_append (limit : ℕ) (s t : Bytes) (h : split limit s = .tooLong) :
    split limit (s ++ t) = .tooLong := by
  induction limit generalizing s with
  | zero => rfl
  | succ limit ih =>
    cases s with
    | nil => simp [split] at h
    | cons b bs =>
      rw [split] at h
      split_ifs at h with hb
      cases hs : split limit bs with
      | incomplete => simp [hs] at h
      | done m r => simp [hs] at h
      | tooLong => rw [List.cons_append, split, if_neg hb, ih bs hs]

theorem value_lt (bs : Bytes) : value bs < 128 ^ bs.length := by
  induction bs with
  | nil => simp [value]
  | cons b bs ih =>
    have hb : b.toNat % 128 < 128 := Nat.mod_lt _ (by omega)
    simp only [value, List.length_cons, pow_succ]
    omega

theorem encode_terminated (n : ℕ) : Terminated (encode n) := by
  induction n using encode.induct with
  | case1 n h => rw [encode, if_pos h]; simp [Terminated]; omega
  | case2 n h ih =>
    rw [encode, if_neg h]
    apply (terminated_cons _ _ _).mpr ih
    rw [UInt8.toNat_ofNat']
    omega

theorem value_encode (n : ℕ) : value (encode n) = n := by
  induction n using encode.induct with
  | case1 n h => rw [encode, if_pos h]; simp [value]; omega
  | case2 n h ih =>
    rw [encode, if_neg h, value, ih, UInt8.toNat_ofNat']
    omega

theorem encode_length (n k : ℕ) (h : n < 128 ^ (k + 1)) : (encode n).length ≤ k + 1 := by
  induction k generalizing n with
  | zero => rw [encode, if_pos (by simpa using h)]; simp
  | succ k ih =>
    rw [encode]
    split_ifs with hn
    · simp
    · have hd : n / 128 < 128 ^ (k + 1) := by
        rw [Nat.div_lt_iff_lt_mul (by omega), ← pow_succ]
        exact h
      simpa using ih (n / 128) hd

end EsphomeNativeApi.Varint
