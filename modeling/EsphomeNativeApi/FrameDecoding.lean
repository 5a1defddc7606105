import EsphomeNativeApi.FrameFormat

/-!
`FrameCodec::decode` implements the frame format: for every buffer it returns what
the parser says, never panics, and keeps exactly the bytes the parser leaves.
-/

namespace EsphomeNativeApi.FrameDecoding

open RustSemantics MessageTable Frames FrameFormat Framing

variable {P : Proto}

theorem additionalFor_eq (src : BytesMut) (n : ℕ) :
    additionalFor src n = .ok (if src.capacity < n then some (n - src.len) else none) := by
  unfold additionalFor
  split_ifs with h
  · have hlen : src.len ≤ n := by
      have := src.fits
      simp only [BytesMut.len]
      omega
    rw [subUsize_eq_ok _ _ hlen, ok_bind]
  · rfl

theorem reserveFor_ok (growth : ℕ → ℕ → ℕ) (src : BytesMut) (n : ℕ) :
    ∃ dst, reserveFor growth src n = .ok dst ∧ dst.data = src.data := by
  obtain ⟨dst, hr⟩ : ∃ dst, reserveFor growth src n = .ok dst := by
    rw [reserveFor, additionalFor_eq, ok_bind]
    exact ⟨_, rfl⟩
  exact ⟨dst, hr, reserveFor_data hr⟩

theorem takeFrame_eq (growth : ℕ → ℕ → ℕ) (src : BytesMut) (v n : ℕ) (hv : 1 + v ≤ src.data.length)
    (hlimit : 1 + v + n < usizeLimit) :
    ∃ dst, takeFrame growth src v n = .ok ((takeData n (src.data.drop (1 + v))).result, dst) ∧
      dst.data = (takeData n (src.data.drop (1 + v))).kept src.data := by
  obtain ⟨src', hr, hd⟩ := reserveFor_ok growth src (1 + v + n)
  rw [takeFrame, addUsize_eq_ok _ _ hlimit, ok_bind, hr, ok_bind]
  by_cases hlen : src'.len < 1 + v + n
  · have hbody : (src.data.drop (1 + v)).length < n := by
      simp only [BytesMut.len, hd, List.length_drop] at hlen ⊢
      omega
    refine ⟨src', by rw [if_pos hlen, takeData, if_pos hbody]; rfl, ?_⟩
    rw [takeData, if_pos hbody, hd]
    rfl
  · have hfull : 1 + v + n ≤ src'.data.length := by simp only [BytesMut.len] at hlen; omega
    have hbody : ¬ (src.data.drop (1 + v)).length < n := by
      rw [← hd, List.length_drop]
      omega
    obtain ⟨dst, ha, hdst⟩ := src'.advance_ok _ hfull
    refine ⟨dst, ?_, ?_⟩
    · have hslice : slice src'.data (v + 1) (v + 1 + n) = .ok ((src.data.drop (1 + v)).take n) := by
        rw [slice_eq_ok _ _ _ (by omega) (by omega), hd, List.drop_take, Nat.add_comm v 1,
          Nat.add_sub_cancel_left]
      simp only [if_neg hlen, hslice, ha, ok_bind, takeData, if_neg hbody, Verdict.result]
    · rw [hdst, hd, takeData, if_neg hbody]
      simp [Verdict.kept, List.drop_drop]

theorem header_encrypted (P : Proto) (c : FrameCodec) (hc : c.encrypted = true) (p : UInt8) (s : Bytes) :
    c.header P (p :: s) = .ok (if p = 1 then
      match s with
      | hi :: lo :: _ => .ok (some (2, hi.toNat * 256 + lo.toNat))
      | _ => .ok none
    else .error expectedEncrypted) := by
  unfold FrameCodec.header
  by_cases hp : p = 1
  · match s with
    | [] => simp [hc, hp]
    | [hi] => simp [hc, hp]
    | hi :: lo :: body =>
      have hlen : ¬ body.length + 1 + 1 + 1 < 3 := by omega
      simp [hc, hp, hlen, slice, readU16]
  · simp [hc, hp]

theorem header_plaintext (hP : P.Lawful) (c : FrameCodec) (hc : c.encrypted = false) (p : UInt8)
    (s : Bytes) :
    c.header P (p :: s) = .ok (if p = 0 then
      match Varint.split 4 s with
      | .incomplete => .ok none
      | .tooLong => .error markerTooLong
      | .done marker _ => .ok (some (marker.length, Varint.value marker + 1))
    else .error expectedPlaintext) := by
  unfold FrameCodec.header
  by_cases hp : p = 0
  · have hloop := varintLoop_eq (p :: s) 3 1 rfl
    rw [List.drop_succ_cons, List.drop_zero] at hloop
    simp only [hc, hp, index_cons_zero, ok_bind, Bool.false_eq_true, ↓reduceIte, ne_eq, not_true_eq_false]
    rw [← hp, hloop]
    cases hs : Varint.split 4 s with
    | incomplete => rfl
    | tooLong => rfl
    | done marker body =>
      obtain ⟨rfl, ht, hm⟩ := Varint.split_done 4 s marker body hs
      have hslice : slice (p :: (marker ++ body)) 1 (marker.length + 1) = .ok marker := by
        rw [slice_eq_ok _ _ _ (by omega) (by simp)]
        simp
      have hvalue : Varint.value marker + 1 < usizeLimit := by
        have hlt := Varint.value_lt marker
        have hpow : 128 ^ marker.length ≤ 128 ^ 4 := Nat.pow_le_pow_right (by omega) hm
        simp only [usizeLimit]
        omega
      simp only [ok_bind, Nat.add_sub_cancel_left, hslice, hP.decode_delimiter marker ht hm,
        unwrapOption_some, addUsize_eq_ok _ _ hvalue]
  · simp [hc, hp]

theorem decode_encrypted (P : Proto) (c : FrameCodec) (hc : c.encrypted = true) (src : BytesMut) :
    ∃ dst, c.decode P src = .ok ((parse true src.data).result, dst) ∧
      dst.data = (parse true src.data).kept src.data := by
  unfold FrameCodec.decode
  match hsrc : src.data with
  | [] => exact ⟨src, rfl, hsrc⟩
  | p :: s =>
    rw [header_encrypted P c hc p s]
    by_cases hp : p = 1
    · match s with
      | [] => exact ⟨src, by simp [hp, parse, parseEncrypted, hsrc, Verdict.result, Verdict.kept]⟩
      | [hi] => exact ⟨src, by simp [hp, parse, parseEncrypted, hsrc, Verdict.result, Verdict.kept]⟩
      | hi :: lo :: body =>
        have hlimit : 1 + 2 + (hi.toNat * 256 + lo.toNat) < usizeLimit := by
          have := hi.toNat_lt
          have := lo.toNat_lt
          simp only [usizeLimit]
          omega
        have h := takeFrame_eq P.growth src 2 (hi.toNat * 256 + lo.toNat) (by simp [hsrc]) hlimit
        simpa [hp, hsrc, parse, parseEncrypted] using h
    · exact ⟨src, by simp [hp, parse, parseEncrypted, hsrc, Verdict.result, Verdict.kept]⟩

theorem decode_plaintext (hP : P.Lawful) (c : FrameCodec) (hc : c.encrypted = false) (src : BytesMut) :
    ∃ dst, c.decode P src = .ok ((parse false src.data).result, dst) ∧
      dst.data = (parse false src.data).kept src.data := by
  unfold FrameCodec.decode
  match hsrc : src.data with
  | [] => exact ⟨src, rfl, hsrc⟩
  | p :: s =>
    rw [header_plaintext hP c hc p s]
    by_cases hp : p = 0
    · cases hs : Varint.split 4 s with
      | incomplete => exact ⟨src, by simp [hp, hs, parse, parsePlaintext, hsrc, Verdict.result, Verdict.kept]⟩
      | tooLong => exact ⟨src, by simp [hp, hs, parse, parsePlaintext, hsrc, Verdict.result, Verdict.kept]⟩
      | done marker body =>
        obtain ⟨rfl, ht, hm⟩ := Varint.split_done 4 s marker body hs
        have hlimit : 1 + marker.length + (Varint.value marker + 1) < usizeLimit := by
          have hlt := Varint.value_lt marker
          have hpow : 128 ^ marker.length ≤ 128 ^ 4 := Nat.pow_le_pow_right (by omega) hm
          simp only [usizeLimit]
          omega
        have h := takeFrame_eq P.growth src marker.length (Varint.value marker + 1) (by simp [hsrc]; omega) hlimit
        simpa [hp, hs, hsrc, Nat.add_comm 1, parse, parsePlaintext] using h
    · exact ⟨src, by simp [hp, parse, parsePlaintext, hsrc, Verdict.result, Verdict.kept]⟩

theorem decode_eq (c : FrameCodec) (hP : c.encrypted = false → P.Lawful) (src : BytesMut) :
    ∃ dst, c.decode P src = .ok ((parse c.encrypted src.data).result, dst) ∧
      dst.data = (parse c.encrypted src.data).kept src.data := by
  cases hc : c.encrypted with
  | true => exact decode_encrypted P c hc src
  | false => exact decode_plaintext (hP hc) c hc src

/-- Repeated `decode` calls against a drained buffer: the same frames, and the same error
or the same bytes left over. -/
def Implements (out : List Bytes × Option IoError × BytesMut) (d : Drained UInt8 Bytes IoError) : Prop :=
  out.1 = d.1 ∧ match d.2 with
    | .ok rest => out.2.1 = none ∧ out.2.2.data = rest
    | .error e => out.2.1 = some e

theorem decodeAll_error {c : FrameCodec} {src dst : BytesMut} {e : IoError}
    (h : c.decode P src = .ok (.error e, dst)) : c.decodeAll P src = .ok ([], some e, dst) := by
  rw [FrameCodec.decodeAll]
  split <;> simp_all

theorem decodeAll_none {c : FrameCodec} {src dst : BytesMut}
    (h : c.decode P src = .ok (.ok none, dst)) : c.decodeAll P src = .ok ([], none, dst) := by
  rw [FrameCodec.decodeAll]
  split <;> simp_all

theorem decodeAll_some {c : FrameCodec} {src dst : BytesMut} {data : Bytes}
    (h : c.decode P src = .ok (.ok (some data), dst)) :
    c.decodeAll P src = c.decodeAll P dst >>= fun out => .ok (data :: out.1, out.2) := by
  rw [FrameCodec.decodeAll]
  split <;> simp_all

theorem decodeAll_eq (c : FrameCodec) (hP : c.encrypted = false → P.Lawful) (src : BytesMut) :
    ∃ out, c.decodeAll P src = .ok out ∧ Implements out (drain (decoder c.encrypted) src.data) := by
  induction hn : src.data.length using Nat.strong_induction_on generalizing src with
  | _ n ih =>
    obtain ⟨dst, hd, hk⟩ := decode_eq c hP src
    cases hp : parse c.encrypted src.data with
    | incomplete =>
      rw [hp] at hd hk
      exact ⟨_, decodeAll_none hd, by rw [drain_incomplete _ hp]; exact ⟨rfl, rfl, hk⟩⟩
    | fail e =>
      rw [hp] at hd
      exact ⟨_, decodeAll_error hd, by rw [drain_fail _ hp]; exact ⟨rfl, rfl⟩⟩
    | frame data rest =>
      rw [hp] at hd hk
      have hk : dst.data = rest := hk
      have hlt : dst.data.length < n := by
        rw [hk, ← hn]
        exact (decoder c.encrypted).frame_shrinks hp
      obtain ⟨⟨frames, e, left⟩, ho, hi⟩ := ih _ hlt dst rfl
      refine ⟨(data :: frames, e, left), by rw [decodeAll_some hd, ho, ok_bind], ?_⟩
      rw [drain_frame _ hp, ← hk]
      exact ⟨by rw [← hi.1], hi.2⟩

theorem deliver_eq (c : FrameCodec) (hP : c.encrypted = false → P.Lawful) (src : BytesMut)
    (chunks : List Bytes) :
    ∃ out, c.deliver P src chunks = .ok out ∧
      Implements out (feed (decoder c.encrypted) src.data chunks) := by
  induction chunks generalizing src with
  | nil => exact ⟨_, rfl, rfl, rfl, rfl⟩
  | cons chunk chunks ih =>
    obtain ⟨⟨frames, e, left⟩, ho, hf, he⟩ := decodeAll_eq c hP (src.extendFromSlice P.growth chunk)
    rw [FrameCodec.deliver, ho, ok_bind, feed]
    rw [BytesMut.extendFromSlice_data] at hf he
    cases hd : (drain (decoder c.encrypted) (src.data ++ chunk)).2 with
    | error err =>
      rw [hd] at he
      obtain rfl : e = some err := he
      exact ⟨_, rfl, hf, rfl⟩
    | ok rest =>
      rw [hd] at he
      obtain ⟨rfl, hleft⟩ : e = none ∧ left.data = rest := he
      obtain ⟨⟨more, e', left'⟩, ho', hi⟩ := ih left
      refine ⟨(frames ++ more, e', left'), by simp only [ho', ok_bind], ?_⟩
      rw [hleft] at hi
      exact ⟨congrArg₂ (· ++ ·) hf hi.1, hi.2⟩

theorem decodeAll_frames (c : FrameCodec) (hP : c.encrypted = false → P.Lawful) (ws items : List Bytes)
    (h : List.Forall₂ (IsFrame c.encrypted) ws items) (src : BytesMut) (hs : src.data = ws.flatten) :
    ∃ dst, c.decodeAll P src = .ok (items, none, dst) ∧ dst.data = [] := by
  obtain ⟨⟨frames, e, dst⟩, ho, hi⟩ := decodeAll_eq c hP src
  rw [hs, drain_exact _ _ _ (h.imp fun _ _ hw => parse_isFrame hw)] at hi
  obtain ⟨rfl, rfl, hd⟩ : frames = items ∧ e = none ∧ dst.data = [] := hi
  exact ⟨dst, ho, hd⟩

theorem deliver_frames (c : FrameCodec) (hP : c.encrypted = false → P.Lawful) (ws items : List Bytes)
    (h : List.Forall₂ (IsFrame c.encrypted) ws items) (chunks : List Bytes)
    (hc : chunks.flatten = ws.flatten) :
    ∃ dst, c.deliver P .empty chunks = .ok (items, none, dst) ∧ dst.data = [] := by
  obtain ⟨⟨frames, e, dst⟩, ho, hi⟩ := deliver_eq c hP .empty chunks
  rw [BytesMut.empty_data, feed_eq_drain _ _ _ (decoder c.encrypted).nil_incomplete, List.nil_append,
    hc, drain_exact _ _ _ (h.imp fun _ _ hw => parse_isFrame hw)] at hi
  obtain ⟨rfl, rfl, hd⟩ : frames = items ∧ e = none ∧ dst.data = [] := hi
  exact ⟨dst, ho, hd⟩

theorem decodeEof_eq (c : FrameCodec) (hP : c.encrypted = false → P.Lawful) (src : BytesMut) :
    ∃ dst, c.decodeEof P src = .ok (match parse c.encrypted src.data with
        | .incomplete => if src.data = [] then .ok none else .error bytesRemaining
        | verdict => verdict.result, dst) ∧
      dst.data = (parse c.encrypted src.data).kept src.data := by
  obtain ⟨dst, hd, hk⟩ := decode_eq c hP src
  refine ⟨dst, ?_, hk⟩
  rw [FrameCodec.decodeEof, hd, ok_bind]
  cases hp : parse c.encrypted src.data with
  | incomplete =>
    have hdata : dst.data = src.data := by rw [hp] at hk; exact hk
    by_cases he : src.data = []
    · simp [Verdict.result, hdata, he]
    · simp [Verdict.result, hdata, he]
  | frame data rest => rfl
  | fail e => rfl

end EsphomeNativeApi.FrameDecoding
