import Mathlib

/-!
Channels between tasks. A queue keeps what was taken out of it, a broadcast keeps all it
was given, so that what a receiver has seen can be compared with what was sent.
-/

namespace EsphomeNativeApi.Channels

variable {α : Type}

/-- A first-in first-out queue with everything taken out of it so far. -/
structure Mpsc (α : Type) where
  taken : List α
  queue : List α

namespace Mpsc

def empty : Mpsc α := ⟨[], []⟩

def accepted (c : Mpsc α) : List α := c.taken ++ c.queue

def push (c : Mpsc α) (a : α) : Mpsc α := ⟨c.taken, c.queue ++ [a]⟩

def pop (c : Mpsc α) : Option (α × Mpsc α) :=
  match c.queue with
  | [] => none
  | a :: queue => some (a, ⟨c.taken ++ [a], queue⟩)

@[simp] theorem accepted_push (c : Mpsc α) (a : α) : (c.push a).accepted = c.accepted ++ [a] := by
  simp [accepted, push]

theorem pop_some {c d : Mpsc α} {a : α} (h : c.pop = some (a, d)) :
    c.queue = a :: d.queue ∧ d.taken = c.taken ++ [a] ∧ d.accepted = c.accepted := by
  unfold pop at h
  split at h
  · cases h
  · rename_i b queue hq
    cases h
    exact ⟨hq, rfl, by simp [accepted, hq]⟩

theorem pop_none {c : Mpsc α} (h : c.pop = none) : c.queue = [] := by
  unfold pop at h
  split at h
  · assumption
  · cases h

theorem taken_accepted (c : Mpsc α) : c.taken <+: c.accepted := List.prefix_append _ _

end Mpsc

inductive Oneshot (α : Type) where
  | waiting
  | sent (a : α)
  | senderDropped

def Oneshot.dropSender : Oneshot α → Oneshot α
  | .waiting => .senderDropped
  | .sent a => .sent a
  | .senderDropped => .senderDropped

inductive Received (α : Type) where
  | value (a : α)
  | lagged (skipped : ℕ)
  | closed

structure Broadcast (α : Type) where
  sent : List α
  cursor : ℕ
  received : List (Received α)

/-- The results account for the values: each was delivered, or overwritten and counted. -/
inductive Accounts : List (Received α) → List α → Prop where
  | none : Accounts [] []
  | value {results : List (Received α)} {values : List α} (before : Accounts results values) (a : α) :
      Accounts (results ++ [.value a]) (values ++ [a])
  | lagged {results : List (Received α)} {values : List α} (before : Accounts results values)
      (overwritten : List α) (some : overwritten ≠ []) :
      Accounts (results ++ [.lagged overwritten.length]) (values ++ overwritten)
  | closed {results : List (Received α)} {values : List α} (before : Accounts results values) :
      Accounts (results ++ [.closed]) values

namespace Received

def value? : Received α → Option α
  | .value a => some a
  | _ => none

def isLagged : Received α → Bool
  | .lagged _ => true
  | _ => false

end Received

def valuesOf (results : List (Received α)) : List α := results.filterMap Received.value?

def Lossless (results : List (Received α)) : Prop := ∀ result ∈ results, result.isLagged = false

theorem valuesOf_append (results more : List (Received α)) :
    valuesOf (results ++ more) = valuesOf results ++ valuesOf more := List.filterMap_append

theorem lossless_append {results more : List (Received α)} :
    Lossless (results ++ more) ↔ Lossless results ∧ Lossless more := List.forall_mem_append

namespace Accounts

variable {results : List (Received α)} {values : List α}

theorem sublist (h : Accounts results values) : (valuesOf results).Sublist values := by
  induction h with
  | none => exact List.Sublist.slnil
  | value before a ih =>
    rw [valuesOf_append]
    exact ih.append (List.Sublist.refl _)
  | lagged before overwritten some ih =>
    rw [valuesOf_append]
    exact ih.append (List.nil_sublist _)
  | closed before ih =>
    rw [valuesOf_append]
    exact (List.append_nil _).symm ▸ ih

theorem valuesOf_eq (h : Accounts results values) (hl : Lossless results) : valuesOf results = values := by
  induction h with
  | none => rfl
  | value before a ih =>
    rw [valuesOf_append, ih (lossless_append.mp hl).1]
    rfl
  | lagged before overwritten some ih =>
    have hlast := (lossless_append.mp hl).2 _ (List.mem_singleton_self _)
    cases hlast
  | closed before ih =>
    rw [valuesOf_append, ih (lossless_append.mp hl).1]
    exact List.append_nil _

end Accounts

namespace Broadcast

def empty : Broadcast α := ⟨[], 0, []⟩

def send (b : Broadcast α) (a : α) : Broadcast α := { b with sent := b.sent ++ [a] }

/-- What the receiver gets next and its cursor after that, where the channel keeps its
last `capacity` values. -/
def next (capacity : ℕ) (senderAlive : Bool) (b : Broadcast α) : Option (Received α × ℕ) :=
  if b.cursor + capacity < b.sent.length then
    some (.lagged (b.sent.length - capacity - b.cursor), b.sent.length - capacity)
  else match b.sent[b.cursor]? with
    | some a => some (.value a, b.cursor + 1)
    | none => if senderAlive then none else some (.closed, b.cursor)

def receive (capacity : ℕ) (senderAlive : Bool) (b : Broadcast α) : Option (Received α × Broadcast α) :=
  (b.next capacity senderAlive).map fun next => (next.1, ⟨b.sent, next.2, b.received ++ [next.1]⟩)

@[simp] theorem send_sent (b : Broadcast α) (a : α) : (b.send a).sent = b.sent ++ [a] := rfl

theorem receive_sent {capacity : ℕ} {senderAlive : Bool} {b c : Broadcast α} {received : Received α}
    (h : b.receive capacity senderAlive = some (received, c)) : c.sent = b.sent := by
  obtain ⟨next, -, hc⟩ := Option.map_eq_some_iff.mp h
  cases hc
  rfl

structure Sound (b : Broadcast α) : Prop where
  bounded : b.cursor ≤ b.sent.length
  accounts : Accounts b.received (b.sent.take b.cursor)

theorem sound_empty : Sound (empty : Broadcast α) := ⟨le_refl _, .none⟩

theorem sound_send {b : Broadcast α} (h : Sound b) (a : α) : Sound (b.send a) where
  bounded := by
    rw [send_sent, List.length_append]
    exact le_add_right h.bounded
  accounts := by
    rw [send_sent, send, List.take_append_of_le_length h.bounded]
    exact h.accounts

inductive Receives (capacity : ℕ) (senderAlive : Bool) (b : Broadcast α) :
    Received α → Broadcast α → Prop where
  | value (a : α) (keeping : b.sent.length ≤ b.cursor + capacity) (next : b.sent[b.cursor]? = some a) :
      Receives capacity senderAlive b (.value a) ⟨b.sent, b.cursor + 1, b.received ++ [.value a]⟩
  | lagged (behind : b.cursor + capacity < b.sent.length) :
      Receives capacity senderAlive b (.lagged (b.sent.length - capacity - b.cursor))
        ⟨b.sent, b.sent.length - capacity,
          b.received ++ [.lagged (b.sent.length - capacity - b.cursor)]⟩
  | closed (ended : senderAlive = false) (drained : b.sent.length ≤ b.cursor) :
      Receives capacity senderAlive b .closed ⟨b.sent, b.cursor, b.received ++ [.closed]⟩

variable {capacity : ℕ} {senderAlive : Bool} {b c : Broadcast α} {received : Received α}

theorem receive_cases (h : b.receive capacity senderAlive = some (received, c)) :
    Receives capacity senderAlive b received c := by
  obtain ⟨⟨result, cursor⟩, hnext, hc⟩ := Option.map_eq_some_iff.mp h
  cases hc
  unfold next at hnext
  by_cases hlag : b.cursor + capacity < b.sent.length
  · rw [if_pos hlag] at hnext
    cases hnext
    exact .lagged hlag
  · rw [if_neg hlag] at hnext
    cases hsent : b.sent[b.cursor]? with
    | some a =>
      rw [hsent] at hnext
      cases hnext
      exact .value a (not_lt.mp hlag) hsent
    | none =>
      rw [hsent] at hnext
      cases senderAlive with
      | true => cases hnext
      | false =>
        cases hnext
        exact .closed rfl (List.getElem?_eq_none_iff.mp hsent)

theorem receive_closed (capacity : ℕ) (h : b.sent.length ≤ b.cursor) :
    b.receive capacity false = some (.closed, ⟨b.sent, b.cursor, b.received ++ [.closed]⟩) := by
  have hkeeps : ¬ b.cursor + capacity < b.sent.length := by omega
  simp [receive, next, hkeeps, List.getElem?_eq_none h]

theorem sound_receive (hb : Sound b) (h : Receives capacity senderAlive b received c) : Sound c := by
  obtain ⟨hbounded, haccounts⟩ := hb
  cases h with
  | value a keeping next =>
    obtain ⟨hlt, ha⟩ := List.getElem?_eq_some_iff.mp next
    refine ⟨hlt, ?_⟩
    rw [List.take_succ_eq_append_getElem hlt, ha]
    exact .value haccounts a
  | lagged behind =>
    -- the receiver goes on with the oldest value that is left
    have hsplit := List.take_append_drop b.cursor (b.sent.take (b.sent.length - capacity))
    rw [List.take_take, Nat.min_eq_left (by omega)] at hsplit
    have hlength : ((b.sent.take (b.sent.length - capacity)).drop b.cursor).length =
        b.sent.length - capacity - b.cursor := by
      rw [List.length_drop, List.length_take]
      omega
    have hsome : (b.sent.take (b.sent.length - capacity)).drop b.cursor ≠ [] := by
      rw [← List.length_pos_iff, hlength]
      omega
    refine ⟨Nat.sub_le _ _, ?_⟩
    rw [← hsplit, ← hlength]
    exact .lagged haccounts _ hsome
  | closed ended drained => exact ⟨hbounded, .closed haccounts⟩

theorem receives_lossless (h : Receives capacity senderAlive b received c) :
    Lossless c.received ↔ Lossless b.received ∧ b.sent.length ≤ b.cursor + capacity := by
  cases h with
  | value a keeping next => simp [Lossless, Received.isLagged, or_imp, forall_and, keeping]
  | lagged behind => simp [Lossless, Received.isLagged, or_imp, forall_and, behind]
  | closed ended drained =>
    have hkeeps : b.sent.length ≤ b.cursor + capacity := le_add_right drained
    simp [Lossless, Received.isLagged, or_imp, forall_and, hkeeps]

theorem receive_isSome (capacity : ℕ) (senderAlive : Bool) (h : b.cursor < b.sent.length) :
    ∃ received c, b.receive capacity senderAlive = some (received, c) := by
  by_cases hlag : b.cursor + capacity < b.sent.length
  · simp [receive, next, hlag]
  · simp [receive, next, hlag, List.getElem?_eq_getElem h]

theorem receives_cursor (h : Receives capacity senderAlive b received c) :
    b.cursor ≤ c.cursor ∧ (b.cursor < b.sent.length → b.cursor < c.cursor) := by
  cases h with
  | value a keeping next => exact ⟨Nat.le_succ _, fun _ => Nat.lt_succ_self _⟩
  | lagged behind =>
    simp only
    omega
  | closed ended drained => exact ⟨le_refl _, fun h => absurd h (not_lt.mpr drained)⟩

theorem receives_appends (h : Receives capacity senderAlive b received c) :
    c.sent = b.sent ∧ c.received = b.received ++ [received] := by
  cases h <;> exact ⟨rfl, rfl⟩

end Broadcast

end EsphomeNativeApi.Channels
