import EsphomeNativeApi.Frames
import EsphomeNativeApi.Framing

/-!
The frame format as a parser of byte strings, and `FrameCodec.decode` as an
implementation of it.
-/

namespace EsphomeNativeApi.FrameFormat

open RustSemantics MessageTable Frames Framing

def takeData (n : ℕ) (body : Bytes) : Verdict UInt8 Bytes IoError :=
  if body.length < n then .incomplete else .frame (body.take n) (body.drop n)

def parseEncrypted : Bytes → Verdict UInt8 Bytes IoError
  | [] => .incomplete
  | preamble :: s =>
    if preamble = 1 then
      match s with
      | hi :: lo :: body => takeData (hi.toNat * 256 + lo.toNat) body
      | _ => .incomplete
    else .fail expectedEncrypted

def parsePlaintext : Bytes → Verdict UInt8 Bytes IoError
  | [] => .incomplete
  | preamble :: s =>
    if preamble = 0 then
      match Varint.split 4 s with
      | .incomplete => .incomplete
      | .tooLong => .fail markerTooLong
      | .done marker body => takeData (Varint.value marker + 1) body
    else .fail expectedPlaintext

def parse : Bool → Bytes → Verdict UInt8 Bytes IoError
  | true => parseEncrypted
  | false => parsePlaintext

/-- The grammar: `w` is one whole frame with the given data. -/
inductive IsFrame : Bool → Bytes → Bytes → Prop where
  | plaintext (marker data : Bytes) (terminated : Varint.Terminated marker)
      (short : marker.length ≤ 4) (length : data.length = Varint.value marker + 1) :
      IsFrame false (0 :: (marker ++ data)) data
  | encrypted (hi lo : UInt8) (data : Bytes) (length : data.length = hi.toNat * 256 + lo.toNat) :
      IsFrame true (1 :: hi :: lo :: data) data

theorem takeData_exact (data t : Bytes) : takeData data.length (data ++ t) = .frame data t := by
  simp [takeData]

theorem takeData_frame {n : ℕ} {body data rest : Bytes} (h : takeData n body = .frame data rest) :
    body = data ++ rest ∧ data.length = n := by
  unfold takeData at h
  split_ifs at h with hn
  cases h
  exact ⟨(List.take_append_drop n body).symm, by simp; omega⟩

theorem takeData_ne_fail (n : ℕ) (body : Bytes) (e : IoError) : takeData n body ≠ .fail e := by
  unfold takeData
  split_ifs <;> simp

theorem parse_isFrame {encrypted : Bool} {w data : Bytes} (h : IsFrame encrypted w data) (t : Bytes) :
    parse encrypted (w ++ t) = .frame data t := by
  cases h with
  | plaintext marker data terminated short length =>
    have hs := Varint.split_append 4 marker (data ++ t) terminated short
    simp [parse, parsePlaintext, hs, ← length, takeData_exact]
  | encrypted hi lo data length => simp [parse, parseEncrypted, ← length, takeData_exact]

/-- The header is cut, and the rest of it can still follow. -/
def Cut (encrypted : Bool) (s : Bytes) : Prop :=
  parse encrypted s = .incomplete ∧ ∃ v data, v ≠ [] ∧ IsFrame encrypted (s ++ v) data

/-- The header is whole, and `n` bytes of data follow it. -/
def Headed (encrypted : Bool) (s : Bytes) : Prop :=
  ∃ header n body, s = header ++ body ∧ parse encrypted s = takeData n body ∧
    ∀ data, data.length = n → IsFrame encrypted (header ++ data) data

theorem parse_encrypted_cases (s : Bytes) :
    Cut true s ∨ (∃ e, ∀ t, parse true (s ++ t) = .fail e) ∨ Headed true s := by
  match s with
  | [] => exact .inl ⟨rfl, [1, 0, 0], [], by simp, .encrypted 0 0 [] rfl⟩
  | preamble :: s =>
    by_cases hp : preamble = 1
    · subst hp
      match s with
      | [] => exact .inl ⟨rfl, [0, 0], [], by simp, .encrypted 0 0 [] rfl⟩
      | [hi] =>
        have hframe := IsFrame.encrypted hi 0 (List.replicate (hi.toNat * 256) 0) (by simp)
        exact .inl ⟨rfl, 0 :: List.replicate (hi.toNat * 256) 0, _, by simp, hframe⟩
      | hi :: lo :: body =>
        exact .inr (.inr ⟨[1, hi, lo], _, body, rfl, rfl, fun data hlength => .encrypted hi lo data hlength⟩)
    · refine .inr (.inl ⟨expectedEncrypted, ?_⟩)
      intro t
      simp [parse, parseEncrypted, hp]

theorem parse_plaintext_cases (s : Bytes) :
    Cut false s ∨ (∃ e, ∀ t, parse false (s ++ t) = .fail e) ∨ Headed false s := by
  match s with
  | [] =>
    have hframe := IsFrame.plaintext [0] [0] (by simp [Varint.Terminated]) (by simp) (by simp [Varint.value])
    exact .inl ⟨rfl, [0, 0, 0], _, by simp, hframe⟩
  | preamble :: s =>
    by_cases hp : preamble = 0
    · subst hp
      cases hs : Varint.split 4 s with
      | incomplete =>
        -- a last byte ends the varint, and its value says how much data is to follow
        obtain ⟨hlength, hterminated⟩ := Varint.split_incomplete 4 s hs
        have hshort : (s ++ [0]).length ≤ 4 := by
          rw [List.length_append, List.length_singleton]
          omega
        have hframe := IsFrame.plaintext _ (List.replicate (Varint.value (s ++ [0]) + 1) 0) hterminated hshort
          (by simp)
        rw [List.append_assoc, List.singleton_append] at hframe
        exact .inl ⟨by simp [parse, parsePlaintext, hs], _, _, List.cons_ne_nil _ _, hframe⟩
      | tooLong =>
        refine .inr (.inl ⟨markerTooLong, ?_⟩)
        intro t
        simp [parse, parsePlaintext, Varint.split_tooLong_append 4 s t hs]
      | done marker body =>
        obtain ⟨rfl, hterminated, hshort⟩ := Varint.split_done 4 s marker body hs
        have hparse : parse false (0 :: (marker ++ body)) = takeData (Varint.value marker + 1) body := by
          simp [parse, parsePlaintext, hs]
        exact .inr (.inr ⟨0 :: marker, _, body, rfl, hparse,
          fun data hlength => .plaintext marker data hterminated hshort hlength⟩)
    · refine .inr (.inl ⟨expectedPlaintext, ?_⟩)
      intro t
      simp [parse, parsePlaintext, hp]

theorem parse_cases (encrypted : Bool) (s : Bytes) :
    Cut encrypted s ∨ (∃ e, ∀ t, parse encrypted (s ++ t) = .fail e) ∨ Headed encrypted s := by
  cases encrypted with
  | true => exact parse_encrypted_cases s
  | false => exact parse_plaintext_cases s

theorem isFrame_of_parse {encrypted : Bool} {s data rest : Bytes}
    (h : parse encrypted s = .frame data rest) : ∃ w, IsFrame encrypted w data ∧ s = w ++ rest := by
  rcases parse_cases encrypted s with ⟨hs, -⟩ | ⟨e, hs⟩ | ⟨header, n, body, rfl, hs, hframe⟩
  · rw [h] at hs
    cases hs
  · have hfail := hs []
    rw [List.append_nil, h] at hfail
    cases hfail
  · rw [hs] at h
    obtain ⟨rfl, hlength⟩ := takeData_frame h
    exact ⟨header ++ data, hframe data hlength, (List.append_assoc header data rest).symm⟩

theorem parse_fail_append {encrypted : Bool} {s : Bytes} {e : IoError} (t : Bytes)
    (h : parse encrypted s = .fail e) : parse encrypted (s ++ t) = .fail e := by
  rcases parse_cases encrypted s with ⟨hs, -⟩ | ⟨e', hs⟩ | ⟨header, n, body, rfl, hs, -⟩
  · rw [h] at hs
    cases hs
  · have hfail := hs []
    rw [List.append_nil, h] at hfail
    rw [hs, hfail]
  · rw [hs] at h
    exact absurd h (takeData_ne_fail n body e)

def decoder (encrypted : Bool) : Decoder UInt8 Bytes IoError where
  parse := parse encrypted
  nil_incomplete := by cases encrypted <;> rfl
  frame_shrinks h := by
    obtain ⟨w, hw, rfl⟩ := isFrame_of_parse h
    cases hw <;> simp <;> omega
  frame_append t h := by
    obtain ⟨w, hw, rfl⟩ := isFrame_of_parse h
    rw [List.append_assoc]
    exact parse_isFrame hw _
  fail_append t h := parse_fail_append t h

theorem drain_isFrame (encrypted : Bool) (s : Bytes) :
    ∃ ws, List.Forall₂ (IsFrame encrypted) ws (drain (decoder encrypted) s).1 ∧
      ∀ rest, (drain (decoder encrypted) s).2 = .ok rest → s = ws.flatten ++ rest := by
  induction hn : s.length using Nat.strong_induction_on generalizing s with
  | _ n ih =>
    cases hp : parse encrypted s with
    | incomplete =>
      rw [drain_incomplete (decoder encrypted) hp]
      exact ⟨[], .nil, fun rest h => by cases h; rfl⟩
    | fail e =>
      rw [drain_fail (decoder encrypted) hp]
      exact ⟨[], .nil, fun rest h => nomatch h⟩
    | frame data r =>
      obtain ⟨w, hw, rfl⟩ := isFrame_of_parse hp
      obtain ⟨ws, hws, hr⟩ := ih r.length (hn ▸ (decoder encrypted).frame_shrinks hp) r rfl
      rw [drain_frame (decoder encrypted) hp]
      exact ⟨w :: ws, .cons hw hws, fun rest h => by rw [List.flatten_cons, List.append_assoc, ← hr rest h]⟩

theorem high_bit_clear (b : UInt8) : b &&& (1 : UInt8) <<< 7 = 0 ↔ b.toNat < 128 := by
  have table : ∀ i : Fin 256, (UInt8.ofFin i &&& (1 : UInt8) <<< 7 = 0) ↔ i.val < 128 := by
    decide +kernel
  exact table b.toFin

theorem varintLoop_step (src : Bytes) (k : ℕ) (h : k < src.length) :
    varintLoop src k = if src[k].toNat < 128 then .ok (.ok (some k))
      else if 4 ≤ k then .ok (.error markerTooLong) else varintLoop src (k + 1) := by
  rw [varintLoop, if_neg (by omega), index_eq_ok src k h, ok_bind]
  simp only [high_bit_clear, gt_iff_lt, Nat.lt_add_one_iff]

theorem varintLoop_eq (src : Bytes) (n k : ℕ) (hk : k + n = 4) :
    varintLoop src k = match Varint.split (n + 1) (src.drop k) with
      | .incomplete => .ok (.ok none)
      | .tooLong => .ok (.error markerTooLong)
      | .done marker _ => .ok (.ok (some (k + marker.length - 1))) := by
  induction n generalizing k with
  | zero =>
    by_cases h : k < src.length
    · rw [varintLoop_step src k h, List.drop_eq_getElem_cons h, Varint.split]
      split_ifs <;> simp [Varint.split]
      omega
    · rw [varintLoop, if_pos (by omega), List.drop_eq_nil_of_le (by omega)]
      rfl
  | succ n ih =>
    by_cases h : k < src.length
    · rw [varintLoop_step src k h, List.drop_eq_getElem_cons h, Varint.split]
      split_ifs with hb hk4
      · simp
      · omega
      · rw [ih (k + 1) (by omega)]
        cases Varint.split (n + 1) (src.drop (k + 1)) with
        | incomplete => rfl
        | tooLong => rfl
        | done marker rest => simp only [List.length_cons]; congr 4; omega
    · rw [varintLoop, if_pos (by omega), List.drop_eq_nil_of_le (by omega)]
      rfl

end EsphomeNativeApi.FrameFormat
