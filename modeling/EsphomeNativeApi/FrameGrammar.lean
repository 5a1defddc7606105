import EsphomeNativeApi.FrameDecoding

/-!
The frame format as a grammar: which buffers `decode` accepts, waits on and rejects, and
that the cuts of the input make no difference to it.
-/

namespace EsphomeNativeApi.FrameGrammar

open RustSemantics MessageTable Frames FrameFormat FrameDecoding Framing

theorem takeData_incomplete {n : ℕ} {body : Bytes} (h : takeData n body = .incomplete) : body.length < n := by
  unfold takeData at h
  split_ifs at h with hn
  exact hn

theorem padded_length {n : ℕ} {body : Bytes} (h : body.length < n) :
    (body ++ List.replicate (n - body.length) 0).length = n := by
  rw [List.length_append, List.length_replicate]
  omega

theorem padding_ne_nil {n : ℕ} {body : Bytes} (h : body.length < n) :
    List.replicate (n - body.length) (0 : UInt8) ≠ [] := by
  rw [Ne, List.replicate_eq_nil_iff]
  omega

theorem parse_completable {encrypted : Bool} {s : Bytes} (h : parse encrypted s = .incomplete) :
    ∃ v data, v ≠ [] ∧ IsFrame encrypted (s ++ v) data := by
  rcases parse_cases encrypted s with ⟨-, hcut⟩ | ⟨e, hs⟩ | ⟨header, n, body, rfl, hs, hframe⟩
  · exact hcut
  · have hfail := hs []
    rw [List.append_nil, h] at hfail
    cases hfail
  · rw [hs] at h
    have hbody := takeData_incomplete h
    have hpadded := hframe _ (padded_length hbody)
    rw [← List.append_assoc] at hpadded
    exact ⟨_, _, padding_ne_nil hbody, hpadded⟩

theorem decoder_completable (encrypted : Bool) : Completable (decoder encrypted) := by
  intro s h
  obtain ⟨v, data, hv, hframe⟩ := parse_completable h
  exact ⟨v, data, hv, parse_isFrame hframe⟩

theorem parse_frame_iff {encrypted : Bool} (s data rest : Bytes) :
    parse encrypted s = .frame data rest ↔ ∃ w, IsFrame encrypted w data ∧ s = w ++ rest := by
  constructor
  · exact isFrame_of_parse
  · rintro ⟨w, hw, rfl⟩
    exact parse_isFrame hw rest

theorem parse_waits_iff {encrypted : Bool} (s : Bytes) :
    parse encrypted s = .incomplete ↔ ∃ v data, v ≠ [] ∧ IsFrame encrypted (s ++ v) data := by
  constructor
  · exact parse_completable
  · rintro ⟨v, data, hv, hframe⟩
    exact parse_incomplete_of_cut (decoder encrypted) (parse_isFrame hframe) hv

theorem parse_rejects_iff {encrypted : Bool} (s : Bytes) :
    (∃ e, parse encrypted s = .fail e) ↔
      ∀ t w data rest, IsFrame encrypted w data → s ++ t ≠ w ++ rest := by
  have hfail := parse_fail_iff (decoder_completable encrypted) s
  apply hfail.trans
  constructor
  · intro h t w data rest hw hs
    exact h t data rest ((parse_frame_iff _ _ _).mpr ⟨w, hw, hs⟩)
  · intro h t data rest hp
    obtain ⟨w, hw, hs⟩ := (parse_frame_iff _ _ _).mp hp
    exact h t w data rest hw hs

theorem plaintext_ne_nil {w data : Bytes} (h : IsFrame false w data) : data ≠ [] := by
  cases h with
  | plaintext marker data terminated short length =>
    intro hnil
    rw [hnil] at length
    cases length

section Decode

variable {P : Proto} (hP : P.Lawful) {encrypted : Bool} {src dst : BytesMut}

include hP

theorem decode_keeps (h : (FrameCodec.new encrypted).decode P src = .ok (.ok none, dst)) :
    dst.data = src.data := by
  obtain ⟨dst', hd, hk⟩ := decode_eq (.new encrypted) (fun _ => hP) src
  rw [hd] at h
  simp only [FrameCodec.new, Except.ok.injEq, Prod.mk.injEq] at h hk
  obtain ⟨hresult, rfl⟩ := h
  rw [hk]
  cases hp : parse encrypted src.data <;> simp_all

theorem decode_consumes {data : Bytes}
    (h : (FrameCodec.new encrypted).decode P src = .ok (.ok (some data), dst)) :
    ∃ w, IsFrame encrypted w data ∧ src.data = w ++ dst.data := by
  obtain ⟨dst', hd, hk⟩ := decode_eq (.new encrypted) (fun _ => hP) src
  rw [hd] at h
  simp only [FrameCodec.new, Except.ok.injEq, Prod.mk.injEq] at h hk
  obtain ⟨hresult, rfl⟩ := h
  apply (parse_frame_iff _ _ _).mp
  rw [hk]
  cases hp : parse encrypted src.data <;> simp_all

end Decode

theorem decode_grammar (P : Proto) (hP : P.Lawful) (encrypted : Bool) (src : BytesMut) :
    ∃ result dst, (FrameCodec.new encrypted).decode P src = .ok (result, dst) ∧
      (∀ data rest, result = .ok (some data) ∧ dst.data = rest ↔
        ∃ w, IsFrame encrypted w data ∧ src.data = w ++ rest) ∧
      (result = .ok none ∧ dst.data = src.data ↔
        ∃ v data, v ≠ [] ∧ IsFrame encrypted (src.data ++ v) data) ∧
      ((∃ e, result = .error e) ↔
        ∀ t w data rest, IsFrame encrypted w data → src.data ++ t ≠ w ++ rest) ∧
      (encrypted = false → ∀ data, result = .ok (some data) → data ≠ []) := by
  obtain ⟨dst, hd, hk⟩ := decode_eq (.new encrypted) (fun _ => hP) src
  simp only [FrameCodec.new] at hk
  refine ⟨_, dst, hd, ?_, ?_, ?_, ?_⟩
  · intro data rest
    rw [← parse_frame_iff, hk, FrameCodec.new]
    cases parse encrypted src.data <;> simp
  · rw [← parse_waits_iff, hk, FrameCodec.new]
    cases parse encrypted src.data <;> simp
  · rw [← parse_rejects_iff, FrameCodec.new]
    cases parse encrypted src.data <;> simp
  · intro hplain data hdata
    subst hplain
    rw [hdata] at hd
    obtain ⟨w, hw, -⟩ := decode_consumes hP hd
    exact plaintext_ne_nil hw

theorem decode_grammar_two_byte_marker :
    ∃ result dst, (FrameCodec.new false).decode wireProto (BytesMut.empty.extendFromSlice wireProto.growth [0, 128, 0, 7, 1]) =
        .ok (result, dst) ∧
      (∀ data rest, result = .ok (some data) ∧ dst.data = rest ↔
        ∃ w, IsFrame false w data ∧ [0, 128, 0, 7, 1] = w ++ rest) ∧
      (result = .ok none ∧ dst.data = [0, 128, 0, 7, 1] ↔
        ∃ v data, v ≠ [] ∧ IsFrame false ([0, 128, 0, 7, 1] ++ v) data) ∧
      ((∃ e, result = .error e) ↔
        ∀ t w data rest, IsFrame false w data → [0, 128, 0, 7, 1] ++ t ≠ w ++ rest) ∧
      (false = false → ∀ data, result = .ok (some data) → data ≠ []) :=
  decode_grammar wireProto wireProto_lawful false (BytesMut.empty.extendFromSlice wireProto.growth [0, 128, 0, 7, 1])

theorem implements_unique {out out' : List Bytes × Option IoError × BytesMut}
    {d : Drained UInt8 Bytes IoError} (h : Implements out d) (h' : Implements out' d) :
    out.1 = out'.1 ∧ out.2.1 = out'.2.1 ∧ (out.2.1 = none → out.2.2.data = out'.2.2.data) := by
  obtain ⟨hframes, hrest⟩ := h
  obtain ⟨hframes', hrest'⟩ := h'
  refine ⟨hframes.trans hframes'.symm, ?_⟩
  cases hd : d.2 with
  | ok rest =>
    rw [hd] at hrest hrest'
    exact ⟨hrest.1.trans hrest'.1.symm, fun _ => hrest.2.trans hrest'.2.symm⟩
  | error e =>
    rw [hd] at hrest hrest'
    have hsome : out.2.1 = some e := hrest
    have hsome' : out'.2.1 = some e := hrest'
    exact ⟨hsome.trans hsome'.symm, fun hnone => nomatch hnone.symm.trans hsome⟩

theorem chunking_independent (P : Proto) (hP : P.Lawful) (encrypted : Bool) (src₁ src₂ : BytesMut)
    (h₁ : src₁.data = []) (h₂ : src₂.data = []) (chunks₁ chunks₂ : List Bytes)
    (h : chunks₁.flatten = chunks₂.flatten) :
    (∃ frames e left₁ left₂,
      (FrameCodec.new encrypted).deliver P src₁ chunks₁ = .ok (frames, e, left₁) ∧
      (FrameCodec.new encrypted).deliver P src₂ chunks₂ = .ok (frames, e, left₂) ∧
      (e = none → left₁.data = left₂.data)) ∧
    (∀ src dst, (FrameCodec.new encrypted).decode P src = .ok (.ok none, dst) → dst.data = src.data) ∧
    (∀ src dst data, (FrameCodec.new encrypted).decode P src = .ok (.ok (some data), dst) →
      ∃ w, IsFrame encrypted w data ∧ src.data = w ++ dst.data) := by
  refine ⟨?_, ?_, ?_⟩
  · obtain ⟨⟨frames₁, e₁, left₁⟩, hd₁, hi₁⟩ := deliver_eq (.new encrypted) (fun _ => hP) src₁ chunks₁
    obtain ⟨⟨frames₂, e₂, left₂⟩, hd₂, hi₂⟩ := deliver_eq (.new encrypted) (fun _ => hP) src₂ chunks₂
    rw [h₁, feed_eq_drain _ _ _ (decoder _).nil_incomplete, List.nil_append, h] at hi₁
    rw [h₂, feed_eq_drain _ _ _ (decoder _).nil_incomplete, List.nil_append] at hi₂
    obtain ⟨rfl, rfl, hleft⟩ := implements_unique hi₁ hi₂
    exact ⟨frames₁, e₁, left₁, left₂, hd₁, hd₂, hleft⟩
  · intro src dst hd
    exact decode_keeps hP hd
  · intro src dst data hd
    exact decode_consumes hP hd

theorem chunking_independent_bytewise :
    (∃ frames e left₁ left₂,
      (FrameCodec.new true).deliver wireProto .empty [[1, 0, 2, 9], [], [9, 1, 0]] = .ok (frames, e, left₁) ∧
      (FrameCodec.new true).deliver wireProto .empty [[1], [0], [2, 9, 9, 1], [0]] = .ok (frames, e, left₂) ∧
      (e = none → left₁.data = left₂.data)) ∧
    (∀ src dst, (FrameCodec.new true).decode wireProto src = .ok (.ok none, dst) → dst.data = src.data) ∧
    (∀ src dst data, (FrameCodec.new true).decode wireProto src = .ok (.ok (some data), dst) →
      ∃ w, IsFrame true w data ∧ src.data = w ++ dst.data) :=
  chunking_independent wireProto wireProto_lawful true .empty .empty rfl rfl
    [[1, 0, 2, 9], [], [9, 1, 0]] [[1], [0], [2, 9, 9, 1], [0]] rfl

end EsphomeNativeApi.FrameGrammar
