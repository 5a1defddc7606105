import EsphomeNativeApi.FrameEncoding
import EsphomeNativeApi.FrameGrammar

/-!
The largest frame: what `encode` refuses to write against what `decode` makes room for
and hands on.
-/

namespace EsphomeNativeApi.FrameLimits

open RustSemantics MessageTable Frames FrameFormat FrameDecoding FrameEncoding FrameGrammar

def headerBytes : Bool → ℕ
  | true => 3
  | false => 5

/-- With these contents, in a buffer of any capacity. A call of `reserve` asks for room up to
the limit, and the buffer grows by nothing else. -/
structure AgreesOnLargest (P : Proto) (encrypted : Bool) (contents : Bytes) : Prop where
  frame : ∀ src dst data, src.data = contents →
    (FrameCodec.new encrypted).decode P src = .ok (.ok (some data), dst) →
    data.length ≤ (FrameCodec.new encrypted).maxLength
  room : ∀ src dst result, src.data = contents →
    (FrameCodec.new encrypted).decode P src = .ok (result, dst) →
    ∃ asked, (FrameCodec.new encrypted).reserves P src = .ok asked ∧
      (∀ additional, asked = some additional →
        src.len + additional ≤ (FrameCodec.new encrypted).maxLength + headerBytes encrypted) ∧
      dst.capacity ≤ (asked.elim src (src.reserve P.growth)).capacity
  encodes : ∀ src dst data, src.data = contents →
    (FrameCodec.new encrypted).decode P src = .ok (.ok (some data), dst) → data ≠ [] →
    ∀ out, ∃ out', (FrameCodec.new encrypted).encode P data out = .ok (.ok (), out')

/-- The header is whole and announces more than `encode` would write. -/
def Oversized (encrypted : Bool) (contents : Bytes) : Prop :=
  encrypted = false ∧ ∃ marker rest, contents = 0 :: (marker ++ rest) ∧ Varint.Terminated marker ∧
    marker.length ≤ 4 ∧ (FrameCodec.new false).maxLength < Varint.value marker + 1

theorem additionalFor_fits {src : BytesMut} {n additional : ℕ} (h : additionalFor src n = .ok (some additional)) :
    src.len + additional = n := by
  rw [additionalFor_eq] at h
  split_ifs at h with hn
  · cases h
    have := src.fits
    simp only [BytesMut.len]
    omega
  · cases h

/-- Of the capacity, `advance` only gives up what it has consumed. -/
theorem takeFrame_capacity {growth : ℕ → ℕ → ℕ} {src dst : BytesMut} {v n : ℕ}
    {result : Except IoError (Option Bytes)} (h : takeFrame growth src v n = .ok (result, dst)) :
    ∃ asked, (addUsize (1 + v) n >>= additionalFor src) = .ok asked ∧
      dst.capacity ≤ (asked.elim src (src.reserve growth)).capacity := by
  simp only [takeFrame, bind_ok_iff] at h
  obtain ⟨cursor, hc, src', hs, h⟩ := h
  obtain ⟨asked, hasked, hs⟩ := (bind_ok_iff _ _ _).mp hs
  cases hs
  refine ⟨asked, by rw [hc, ok_bind, hasked], ?_⟩
  split_ifs at h with hlen
  · cases h
    exact le_refl _
  · obtain ⟨data, -, h⟩ := (bind_ok_iff _ _ _).mp h
    obtain ⟨rest, hr, h⟩ := (bind_ok_iff _ _ _).mp h
    cases h
    unfold BytesMut.advance at hr
    split_ifs at hr
    cases hr
    exact Nat.sub_le _ _

section Limits

variable {P : Proto}

theorem reserves_header {c : FrameCodec} {src : BytesMut} {v n : ℕ} (hne : src.data ≠ [])
    (h : c.header P src.data = .ok (.ok (some (v, n)))) :
    c.reserves P src = (addUsize (1 + v) n >>= additionalFor src) := by
  rw [FrameCodec.reserves, if_neg (by simpa using hne), h]
  rfl

theorem decode_capacity {c : FrameCodec} {src dst : BytesMut} {result : Except IoError (Option Bytes)}
    (h : c.decode P src = .ok (result, dst)) :
    ∃ asked, c.reserves P src = .ok asked ∧ dst.capacity ≤ (asked.elim src (src.reserve P.growth)).capacity := by
  unfold FrameCodec.decode at h
  split_ifs at h with hempty
  · cases h
    exact ⟨none, by rw [FrameCodec.reserves, if_pos hempty], le_refl _⟩
  · obtain ⟨header, hheader, h⟩ := (bind_ok_iff _ _ _).mp h
    match header with
    | .error e =>
      cases h
      exact ⟨none, by rw [FrameCodec.reserves, if_neg hempty, hheader]; rfl, le_refl _⟩
    | .ok none =>
      cases h
      exact ⟨none, by rw [FrameCodec.reserves, if_neg hempty, hheader]; rfl, le_refl _⟩
    | .ok (some (v, n)) =>
      rw [reserves_header (by simpa using hempty) hheader]
      exact takeFrame_capacity h

theorem reserves_fits {c : FrameCodec} {src : BytesMut} {limit additional : ℕ}
    (hlimit : ∀ v n, c.header P src.data = .ok (.ok (some (v, n))) → 1 + v + n ≤ limit)
    (h : c.reserves P src = .ok (some additional)) : src.len + additional ≤ limit := by
  unfold FrameCodec.reserves at h
  split_ifs at h
  · cases h
  · obtain ⟨header, hheader, h⟩ := (bind_ok_iff _ _ _).mp h
    match header with
    | .error e => cases h
    | .ok none => cases h
    | .ok (some (v, n)) =>
      obtain ⟨cursor, hc, h⟩ := (bind_ok_iff _ _ _).mp h
      unfold addUsize at hc
      split_ifs at hc
      cases hc
      rw [additionalFor_fits h]
      exact hlimit v n hheader

theorem header_fits (hP : P.Lawful) {encrypted : Bool} {contents : Bytes} (h : ¬ Oversized encrypted contents)
    {v n : ℕ} (hne : contents ≠ [])
    (hh : (FrameCodec.new encrypted).header P contents = .ok (.ok (some (v, n)))) :
    1 + v + n ≤ (FrameCodec.new encrypted).maxLength + headerBytes encrypted := by
  obtain ⟨b, s, rfl⟩ := List.exists_cons_of_ne_nil hne
  cases encrypted with
  | true =>
    rw [header_encrypted P _ rfl] at hh
    split_ifs at hh
    · match s with
      | [] => cases hh
      | [hi] => cases hh
      | hi :: lo :: body =>
        cases hh
        have := hi.toNat_lt
        have := lo.toNat_lt
        simp only [FrameCodec.new, headerBytes]
        omega
    · cases hh
  | false =>
    rw [header_plaintext hP _ rfl] at hh
    split_ifs at hh with hb
    · cases hs : Varint.split 4 s with
      | incomplete => simp [hs] at hh
      | tooLong => simp [hs] at hh
      | done marker body =>
        simp only [hs] at hh
        cases hh
        obtain ⟨rfl, hterminated, hshort⟩ := Varint.split_done 4 s marker body hs
        have hfits : ¬ (FrameCodec.new false).maxLength < Varint.value marker + 1 := by
          intro hlarge
          exact h ⟨rfl, marker, body, by rw [hb], hterminated, hshort, hlarge⟩
        simp only [headerBytes]
        omega
    · cases hh

theorem frame_fits {encrypted : Bool} {contents w data rest : Bytes} (h : ¬ Oversized encrypted contents)
    (hw : IsFrame encrypted w data) (hc : contents = w ++ rest) :
    data.length ≤ (FrameCodec.new encrypted).maxLength := by
  cases hw with
  | encrypted hi lo data length =>
    have := hi.toNat_lt
    have := lo.toNat_lt
    simp only [FrameCodec.new]
    omega
  | plaintext marker data terminated short length =>
    by_contra hlarge
    apply h
    refine ⟨rfl, marker, data ++ rest, ?_, terminated, short, by omega⟩
    rw [hc, List.cons_append, List.append_assoc]

theorem marker_length {marker : Bytes} (h : (FrameCodec.new false).maxLength < Varint.value marker + 1) :
    4 ≤ marker.length := by
  by_contra hshort
  have hvalue := Varint.value_lt marker
  have hpow : 128 ^ marker.length ≤ 128 ^ 3 := Nat.pow_le_pow_right (by omega) (by omega)
  simp only [FrameCodec.new] at h
  omega

theorem oversized_disagrees (hP : P.Lawful) {encrypted : Bool} {contents : Bytes}
    (h : Oversized encrypted contents) : ¬ AgreesOnLargest P encrypted contents := by
  obtain ⟨rfl, marker, rest, rfl, hterminated, hshort, hlarge⟩ := h
  intro hagrees
  have hfour := marker_length hlarge
  by_cases hwhole : Varint.value marker + 1 ≤ rest.length
  · -- the frame is there and is handed on
    have hframe := IsFrame.plaintext marker (rest.take (Varint.value marker + 1)) hterminated hshort
      (by rw [List.length_take]; omega)
    let src : BytesMut := ⟨0 :: (marker ++ rest), _, le_refl _⟩
    obtain ⟨dst, hd, -⟩ := decode_eq (.new false) (fun _ => hP) src
    have hparse := parse_isFrame hframe (rest.drop (Varint.value marker + 1))
    simp only [List.cons_append, List.append_assoc, List.take_append_drop] at hparse
    have hdata : parse (FrameCodec.new false).encrypted src.data = _ := hparse
    rw [hdata] at hd
    have hfits := hagrees.frame src dst _ rfl hd
    rw [List.length_take] at hfits
    omega
  · -- the frame is still to come, and there is no room for it yet
    let src : BytesMut := ⟨0 :: (marker ++ rest), _, le_refl _⟩
    have hheader : (FrameCodec.new false).header P src.data =
        .ok (.ok (some (marker.length, Varint.value marker + 1))) := by
      rw [header_plaintext hP _ rfl, if_pos rfl, Varint.split_append 4 marker rest hterminated hshort]
    have hlimit : 1 + marker.length + (Varint.value marker + 1) < usizeLimit := by
      have hvalue := Varint.value_lt marker
      have hpow : 128 ^ marker.length ≤ 128 ^ 4 := Nat.pow_le_pow_right (by omega) hshort
      simp only [usizeLimit]
      omega
    have hwaits : src.capacity < 1 + marker.length + (Varint.value marker + 1) := by
      simp only [src, List.length_cons, List.length_append]
      omega
    have hreserves : (FrameCodec.new false).reserves P src =
        .ok (some (1 + marker.length + (Varint.value marker + 1) - src.len)) := by
      rw [reserves_header (List.cons_ne_nil _ _) hheader, addUsize_eq_ok _ _ hlimit, ok_bind, additionalFor_eq,
        if_pos hwaits]
    obtain ⟨dst, hd, -⟩ := decode_eq (.new false) (fun _ => hP) src
    obtain ⟨asked, hasked, hfits, -⟩ := hagrees.room src dst _ rfl hd
    have hfits := hfits _ (Except.ok.inj (hasked.symm.trans hreserves))
    simp only [headerBytes, src, BytesMut.len, List.length_cons, List.length_append] at hfits hwaits
    omega

end Limits

theorem largest_frame_iff (P : Proto) (hP : P.Lawful) (encrypted : Bool) (contents : Bytes) :
    AgreesOnLargest P encrypted contents ↔ ¬ Oversized encrypted contents := by
  constructor
  · intro hagrees hlarge
    exact oversized_disagrees hP hlarge hagrees
  · intro h
    have hframe : ∀ src dst data, src.data = contents →
        (FrameCodec.new encrypted).decode P src = .ok (.ok (some data), dst) →
        (encrypted = false → data ≠ []) ∧ data.length ≤ (FrameCodec.new encrypted).maxLength := by
      intro src dst data hsrc hd
      obtain ⟨w, hw, hc⟩ := decode_consumes hP hd
      constructor
      · rintro rfl
        exact plaintext_ne_nil hw
      · exact frame_fits h hw (hsrc ▸ hc)
    constructor
    · intro src dst data hsrc hd
      exact (hframe src dst data hsrc hd).2
    · intro src dst result hsrc hd
      obtain ⟨asked, hasked, hcapacity⟩ := decode_capacity hd
      refine ⟨asked, hasked, ?_, hcapacity⟩
      rintro additional rfl
      apply reserves_fits _ hasked
      intro v n hh
      subst hsrc
      by_cases hne : src.data = []
      · rw [hne] at hh
        cases hh
      · exact header_fits hP h hne hh
    · intro src dst data hsrc hd _ out
      obtain ⟨hne, hlength⟩ := hframe src dst data hsrc hd
      obtain ⟨out', hout, -⟩ := encode_ok (.new encrypted) (fun _ => hP) data out hne hlength
      exact ⟨out', hout⟩

theorem largest_frame_encrypted_header : AgreesOnLargest wireProto true [1, 255, 255] := by
  apply (largest_frame_iff wireProto wireProto_lawful true [1, 255, 255]).mpr
  rintro ⟨hplain, -⟩
  cases hplain

theorem five_byte_header_disagrees : ¬ AgreesOnLargest wireProto false [0, 128, 128, 128, 4] := by
  apply oversized_disagrees wireProto_lawful
  refine ⟨rfl, [128, 128, 128, 4], [], rfl, ?_, by decide, by decide⟩
  simp [Varint.Terminated]

end EsphomeNativeApi.FrameLimits
