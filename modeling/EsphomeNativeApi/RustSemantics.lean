import Mathlib

/-!
Rust's partial operations as computations that return a value or panic. A Rust
function returning `Result<T, E>` becomes `Rust (Except E T)`: it panics, or it
returns `Ok` or `Err`.
-/

namespace EsphomeNativeApi.RustSemantics

abbrev Bytes := List UInt8

inductive Panic where
  | unwrapNone
  | unwrapErr
  | outOfRange
  | overflow
  | assertion
  deriving DecidableEq, Repr

abbrev Rust := Except Panic

variable {α β ε : Type}

@[simp] theorem ok_bind (a : α) (f : α → Rust β) : (Except.ok a >>= f : Rust β) = f a := rfl

@[simp] theorem error_bind (p : Panic) (f : α → Rust β) :
    (Except.error p >>= f : Rust β) = .error p := rfl

theorem bind_ok_iff (x : Rust α) (f : α → Rust β) (b : β) :
    x >>= f = .ok b ↔ ∃ a, x = .ok a ∧ f a = .ok b := by
  cases x <;> simp

def unwrap : Except ε α → Rust α
  | .ok a => .ok a
  | .error _ => .error .unwrapErr

def unwrapOption : Option α → Rust α
  | some a => .ok a
  | none => .error .unwrapNone

def index (xs : List α) (i : ℕ) : Rust α :=
  match xs[i]? with
  | some x => .ok x
  | none => .error .outOfRange

def slice (xs : List α) (start stop : ℕ) : Rust (List α) :=
  if start ≤ stop ∧ stop ≤ xs.length then .ok ((xs.take stop).drop start) else .error .outOfRange

def sliceFrom (xs : List α) (start : ℕ) : Rust (List α) :=
  if start ≤ xs.length then .ok (xs.drop start) else .error .outOfRange

def asBytes (s : String) : Bytes := s.toUTF8.data.toList

def usizeLimit : ℕ := 2 ^ 64

def addUsize (a b : ℕ) : Rust ℕ := if a + b < usizeLimit then .ok (a + b) else .error .overflow

def subUsize (a b : ℕ) : Rust ℕ := if b ≤ a then .ok (a - b) else .error .overflow

@[simp] theorem unwrap_ok (a : α) : unwrap (.ok a : Except ε α) = .ok a := rfl

@[simp] theorem unwrap_error (e : ε) : unwrap (.error e : Except ε α) = .error .unwrapErr := rfl

@[simp] theorem unwrapOption_some (a : α) : unwrapOption (some a) = .ok a := rfl

@[simp] theorem unwrapOption_none : unwrapOption (none : Option α) = .error .unwrapNone := rfl

@[simp] theorem index_cons_zero (x : α) (xs : List α) : index (x :: xs) 0 = .ok x := rfl

theorem index_eq_ok (xs : List α) (i : ℕ) (h : i < xs.length) : index xs i = .ok xs[i] := by
  simp [index, h]

theorem slice_eq_ok (xs : List α) (i j : ℕ) (hij : i ≤ j) (hj : j ≤ xs.length) :
    slice xs i j = .ok ((xs.take j).drop i) := by simp [slice, hij, hj]

theorem sliceFrom_eq_ok (xs : List α) (i : ℕ) (h : i ≤ xs.length) :
    sliceFrom xs i = .ok (xs.drop i) := by simp [sliceFrom, h]

theorem addUsize_eq_ok (a b : ℕ) (h : a + b < usizeLimit) : addUsize a b = .ok (a + b) := by
  simp [addUsize, h]

theorem subUsize_eq_ok (a b : ℕ) (h : b ≤ a) : subUsize a b = .ok (a - b) := by
  simp [subUsize, h]

structure BytesMut where
  data : Bytes
  capacity : ℕ
  fits : data.length ≤ capacity

namespace BytesMut

def empty : BytesMut := ⟨[], 0, le_refl _⟩

def len (b : BytesMut) : ℕ := b.data.length

/-- A buffer that has to grow takes at least what is needed; how much more is up to `growth`. -/
def reserve (growth : ℕ → ℕ → ℕ) (b : BytesMut) (additional : ℕ) : BytesMut :=
  let needed := b.data.length + additional
  if needed ≤ b.capacity then b
  else ⟨b.data, max needed (growth b.capacity needed), le_max_of_le_left (Nat.le_add_right _ _)⟩

@[simp] theorem reserve_data (growth : ℕ → ℕ → ℕ) (b : BytesMut) (n : ℕ) : (b.reserve growth n).data = b.data := by
  simp only [reserve]
  split_ifs <;> rfl

theorem reserve_room (growth : ℕ → ℕ → ℕ) (b : BytesMut) (n : ℕ) :
    b.data.length + n ≤ (b.reserve growth n).capacity := by
  simp only [reserve]
  split_ifs with h
  · exact h
  · exact le_max_left _ _

def extendFromSlice (growth : ℕ → ℕ → ℕ) (b : BytesMut) (bytes : Bytes) : BytesMut :=
  ⟨b.data ++ bytes, (b.reserve growth bytes.length).capacity, by
    rw [List.length_append]
    exact reserve_room growth b bytes.length⟩

def advance (b : BytesMut) (count : ℕ) : Rust BytesMut :=
  if count ≤ b.data.length then
    .ok ⟨b.data.drop count, b.capacity - count, by have := b.fits; simp only [List.length_drop]; omega⟩
  else .error .assertion

@[simp] theorem empty_data : empty.data = [] := rfl

@[simp] theorem extendFromSlice_data (growth : ℕ → ℕ → ℕ) (b : BytesMut) (bytes : Bytes) :
    (b.extendFromSlice growth bytes).data = b.data ++ bytes := rfl

theorem advance_data {b c : BytesMut} {n : ℕ} (h : b.advance n = .ok c) :
    n ≤ b.data.length ∧ c.data = b.data.drop n := by
  unfold advance at h
  split_ifs at h with hn
  cases h
  exact ⟨hn, rfl⟩

theorem advance_ok (b : BytesMut) (n : ℕ) (h : n ≤ b.data.length) :
    ∃ c, b.advance n = .ok c ∧ c.data = b.data.drop n := by
  simp [advance, h]

end BytesMut

end EsphomeNativeApi.RustSemantics
