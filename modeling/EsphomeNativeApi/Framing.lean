import Mathlib

/-!
Decoders that cut frames off the front of a growing buffer. The laws say that a
verdict, once given, does not depend on what arrives later, so that neither does
the sequence of frames on how the input is cut into chunks.
-/

namespace EsphomeNativeApi.Framing

inductive Verdict (α β ε : Type) where
  | incomplete
  | frame (item : β) (rest : List α)
  | fail (error : ε)

@[simp] def Verdict.result {α β ε : Type} : Verdict α β ε → Except ε (Option β)
  | .incomplete => .ok none
  | .frame b _ => .ok (some b)
  | .fail e => .error e

@[simp] def Verdict.kept {α β ε : Type} (s : List α) : Verdict α β ε → List α
  | .incomplete => s
  | .frame _ r => r
  | .fail _ => s

structure Decoder (α β ε : Type) where
  parse : List α → Verdict α β ε
  nil_incomplete : parse [] = .incomplete
  frame_shrinks : ∀ {s b r}, parse s = .frame b r → r.length < s.length
  frame_append : ∀ {s b r} t, parse s = .frame b r → parse (s ++ t) = .frame b (r ++ t)
  fail_append : ∀ {s e} t, parse s = .fail e → parse (s ++ t) = .fail e

variable {α β ε : Type}

abbrev Drained (α β ε : Type) := List β × Except ε (List α)

def drain (D : Decoder α β ε) (s : List α) : Drained α β ε :=
  match _h : D.parse s with
  | .incomplete => ([], .ok s)
  | .fail e => ([], .error e)
  | .frame b r => (b :: (drain D r).1, (drain D r).2)
termination_by s.length
decreasing_by all_goals exact D.frame_shrinks _h

def Drained.resume (D : Decoder α β ε) (d : Drained α β ε) (t : List α) : Drained α β ε :=
  match d.2 with
  | .error e => (d.1, .error e)
  | .ok rest => (d.1 ++ (drain D (rest ++ t)).1, (drain D (rest ++ t)).2)

def feed (D : Decoder α β ε) : List α → List (List α) → Drained α β ε
  | buffer, [] => ([], .ok buffer)
  | buffer, chunk :: chunks =>
    let d := drain D (buffer ++ chunk)
    match d.2 with
    | .error e => (d.1, .error e)
    | .ok rest => (d.1 ++ (feed D rest chunks).1, (feed D rest chunks).2)

theorem drain_incomplete (D : Decoder α β ε) {s : List α} (h : D.parse s = .incomplete) :
    drain D s = ([], .ok s) := by
  rw [drain]
  split <;> simp_all

theorem drain_fail (D : Decoder α β ε) {s : List α} {e : ε} (h : D.parse s = .fail e) :
    drain D s = ([], .error e) := by
  rw [drain]
  split <;> simp_all

theorem drain_frame (D : Decoder α β ε) {s r : List α} {b : β} (h : D.parse s = .frame b r) :
    drain D s = (b :: (drain D r).1, (drain D r).2) := by
  rw [drain]
  split <;> simp_all

@[simp] theorem drain_nil (D : Decoder α β ε) : drain D [] = ([], .ok []) :=
  drain_incomplete D D.nil_incomplete

theorem drain_append (D : Decoder α β ε) (s t : List α) :
    drain D (s ++ t) = (drain D s).resume D t := by
  induction hn : s.length using Nat.strong_induction_on generalizing s with
  | _ n ih =>
    cases h : D.parse s with
    | incomplete => simp [Drained.resume, drain_incomplete D h]
    | fail e => simp [Drained.resume, drain_fail D h, drain_fail D (D.fail_append t h)]
    | frame b r =>
      have hr := ih r.length (hn ▸ D.frame_shrinks h) r rfl
      rw [drain_frame D (D.frame_append t h), drain_frame D h, hr]
      unfold Drained.resume
      cases (drain D r).2 <;> simp

theorem drain_rest_incomplete (D : Decoder α β ε) (s rest : List α)
    (h : (drain D s).2 = .ok rest) : D.parse rest = .incomplete := by
  induction hn : s.length using Nat.strong_induction_on generalizing s with
  | _ n ih =>
    cases hp : D.parse s with
    | incomplete =>
      rw [drain_incomplete D hp] at h
      cases h
      exact hp
    | fail e => simp [drain_fail D hp] at h
    | frame b r =>
      rw [drain_frame D hp] at h
      exact ih r.length (hn ▸ D.frame_shrinks hp) r h rfl

theorem feed_eq_drain (D : Decoder α β ε) (buffer : List α) (chunks : List (List α))
    (h : D.parse buffer = .incomplete) :
    feed D buffer chunks = drain D (buffer ++ chunks.flatten) := by
  induction chunks generalizing buffer with
  | nil => simp [feed, drain_incomplete D h]
  | cons chunk chunks ih =>
    rw [List.flatten_cons, ← List.append_assoc, drain_append, feed]
    cases hd : (drain D (buffer ++ chunk)).2 with
    | error e => simp [Drained.resume, hd]
    | ok rest => simp [Drained.resume, hd, ih rest (drain_rest_incomplete D _ _ hd)]

def IsEncoding (D : Decoder α β ε) (w : List α) (b : β) : Prop :=
  ∀ t, D.parse (w ++ t) = .frame b t

theorem parse_incomplete_of_cut (D : Decoder α β ε) {u v : List α} {b : β} (h : IsEncoding D (u ++ v) b)
    (hv : v ≠ []) : D.parse u = .incomplete := by
  have hall := h []
  rw [List.append_nil] at hall
  cases hp : D.parse u with
  | incomplete => rfl
  | fail e => exact nomatch (D.fail_append v hp).symm.trans hall
  | frame b' r =>
    have heq := (D.frame_append v hp).symm.trans hall
    simp only [Verdict.frame.injEq, List.append_eq_nil_iff] at heq
    exact absurd heq.2.2 hv

theorem drain_partial (D : Decoder α β ε) {u v : List α} {b : β} (h : IsEncoding D (u ++ v) b)
    (hv : v ≠ []) : drain D u = ([], .ok u) :=
  drain_incomplete D (parse_incomplete_of_cut D h hv)

/-- The decoder waits only for what can still come. -/
def Completable (D : Decoder α β ε) : Prop :=
  ∀ s, D.parse s = .incomplete → ∃ v b, v ≠ [] ∧ IsEncoding D (s ++ v) b

theorem parse_fail_iff {D : Decoder α β ε} (hD : Completable D) (s : List α) :
    (∃ e, D.parse s = .fail e) ↔ ∀ t b r, D.parse (s ++ t) ≠ .frame b r := by
  constructor
  · rintro ⟨e, he⟩ t b r h
    exact nomatch (D.fail_append t he).symm.trans h
  · intro h
    cases hp : D.parse s with
    | incomplete =>
      obtain ⟨v, b, -, hv⟩ := hD s hp
      have hframe := hv []
      rw [List.append_nil] at hframe
      exact absurd hframe (h v b [])
    | frame b r => exact absurd (D.frame_append [] hp) (h [] b _)
    | fail e => exact ⟨e, rfl⟩

theorem drain_encodings (D : Decoder α β ε) (ws : List (List α)) (bs : List β) (t : List α)
    (h : List.Forall₂ (IsEncoding D) ws bs) :
    drain D (ws.flatten ++ t) = (bs ++ (drain D t).1, (drain D t).2) := by
  induction h with
  | nil => simp
  | cons hw _ ih => rw [List.flatten_cons, List.append_assoc, drain_frame D (hw _), ih]; rfl

theorem drain_exact (D : Decoder α β ε) (ws : List (List α)) (bs : List β)
    (h : List.Forall₂ (IsEncoding D) ws bs) : drain D ws.flatten = (bs, .ok []) := by
  simpa using drain_encodings D ws bs [] h

end EsphomeNativeApi.Framing
