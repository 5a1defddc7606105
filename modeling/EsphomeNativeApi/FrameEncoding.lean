import EsphomeNativeApi.FrameDecoding

/-!
What `FrameCodec::encode` writes, and when it is a frame that `decode` reads back.
-/

namespace EsphomeNativeApi.FrameEncoding

open RustSemantics MessageTable Frames FrameFormat FrameDecoding Framing

variable {P : Proto}

def frameOf (encrypted : Bool) (item : Bytes) : Bytes :=
  if encrypted then 1 :: (u16ToBeBytes item.length ++ item)
  else 0 :: (Varint.encode (item.length - 1) ++ item)

theorem frameOf_ne_nil (encrypted : Bool) (item : Bytes) : frameOf encrypted item ≠ [] := by
  cases encrypted <;> exact List.cons_ne_nil _ _

theorem encode_tooLarge (c : FrameCodec) (item : Bytes) (dst : BytesMut)
    (h : c.maxLength < item.length) :
    c.encode P item dst = .ok (.error (tooLarge item.length), dst) := by
  have hpos : 1 ≤ item.length := by omega
  cases hc : c.encrypted <;> simp [FrameCodec.encode, hc, subUsize_eq_ok _ _ hpos, h]

theorem encode_ok (c : FrameCodec) (hP : c.encrypted = false → P.Lawful) (item : Bytes) (dst : BytesMut)
    (hne : c.encrypted = false → item ≠ []) (h : item.length ≤ c.maxLength) :
    ∃ dst', c.encode P item dst = .ok (.ok (), dst') ∧
      dst'.data = dst.data ++ frameOf c.encrypted item := by
  have hsize : ¬ item.length > c.maxLength := by omega
  cases hc : c.encrypted with
  | true =>
    refine ⟨_, by simp only [FrameCodec.encode, hc, ok_bind, ↓reduceIte, if_neg hsize]; rfl, ?_⟩
    simp [frameOf]
  | false =>
    have hpos : 1 ≤ item.length := List.length_pos_iff.mpr (hne hc)
    refine ⟨_, by simp only [FrameCodec.encode, hc, subUsize_eq_ok _ _ hpos, ok_bind, Bool.false_eq_true,
      ↓reduceIte, if_neg hsize, (hP hc).encode_delimiter, unwrapOption_some]; rfl, ?_⟩
    simp [frameOf]

theorem frameOf_plaintext (item : Bytes) (hne : item ≠ []) (h : item.length ≤ 128 ^ 4) :
    IsFrame false (frameOf false item) item := by
  have hpos : 0 < item.length := List.length_pos_iff.mpr hne
  apply IsFrame.plaintext _ _ (Varint.encode_terminated _) (Varint.encode_length _ 3 (by omega))
  rw [Varint.value_encode]
  omega

theorem u16_value (n : ℕ) (h : n < 65536) :
    (UInt8.ofNat (n % 65536 / 256)).toNat * 256 + (UInt8.ofNat (n % 256)).toNat = n := by
  simp only [UInt8.toNat_ofNat']
  omega

theorem frameOf_encrypted (item : Bytes) (h : item.length < 65536) :
    IsFrame true (frameOf true item) item :=
  .encrypted _ _ _ (u16_value _ h).symm

theorem encodeAll_ok (c : FrameCodec) (hP : c.encrypted = false → P.Lawful) (items : List Bytes)
    (dst : BytesMut)
    (hne : c.encrypted = false → ∀ item ∈ items, item ≠ [])
    (h : ∀ item ∈ items, item.length ≤ c.maxLength) :
    ∃ dst', c.encodeAll P items dst = .ok (.ok (), dst') ∧
      dst'.data = dst.data ++ (items.map (frameOf c.encrypted)).flatten := by
  induction items generalizing dst with
  | nil => exact ⟨dst, rfl, by simp⟩
  | cons item items ih =>
    obtain ⟨hi, hrest⟩ := List.forall_mem_cons.mp h
    obtain ⟨mid, he, hm⟩ := encode_ok c hP item dst (fun hc => (List.forall_mem_cons.mp (hne hc)).1) hi
    obtain ⟨dst', ha, hd⟩ := ih mid (fun hc => (List.forall_mem_cons.mp (hne hc)).2) hrest
    exact ⟨dst', by rw [FrameCodec.encodeAll, he, ok_bind]; exact ha, by rw [hd, hm]; simp⟩

theorem encodeAll_accepts (c : FrameCodec) (items : List Bytes) (dst dst' : BytesMut)
    (h : c.encodeAll P items dst = .ok (.ok (), dst')) : ∀ item ∈ items, item.length ≤ c.maxLength := by
  induction items generalizing dst with
  | nil => simp
  | cons item items ih =>
    have hi : item.length ≤ c.maxLength := by
      by_contra hlarge
      simp [FrameCodec.encodeAll, encode_tooLarge c item dst (by omega)] at h
    obtain ⟨⟨r, mid⟩, he, hrest⟩ := (bind_ok_iff _ _ _).mp h
    cases r with
    | error e => cases hrest
    | ok _ => exact List.forall_mem_cons.mpr ⟨hi, ih mid hrest⟩

def Frameable (P : Proto) (c : FrameCodec) (item : Bytes) : Prop :=
  ∃ src dst, c.decode P src = .ok (.ok (some item), dst) ∧ dst.data = []

structure NeverDesynchronises (P : Proto) (items : List Bytes) : Prop where
  reads_back : ∀ dst, (FrameCodec.new true).encodeAll P items .empty = .ok (.ok (), dst) →
    ∃ rest, (FrameCodec.new true).decodeAll P dst = .ok (items, none, rest) ∧ rest.data = []
  refuses : ∀ item ∈ items, ¬ Frameable P (.new true) item →
    ∀ dst, ∃ e, (FrameCodec.new true).encode P item dst = .ok (.error e, dst)

/-- Past the 16 bits of the length field and within the size check of `encode`. -/
def Overflows (item : Bytes) : Prop :=
  65535 < item.length ∧ item.length ≤ (FrameCodec.new true).maxLength

theorem new_plaintext_lawful {P : Proto} : (FrameCodec.new true).encrypted = false → P.Lawful :=
  fun h => nomatch h

theorem isFrame_encrypted_length {w item : Bytes} (h : IsFrame true w item) : item.length < 65536 := by
  cases h with
  | encrypted hi lo data length =>
    have := hi.toNat_lt
    have := lo.toNat_lt
    omega

theorem frameable_iff (item : Bytes) : Frameable P (.new true) item ↔ item.length < 65536 := by
  constructor
  · rintro ⟨src, dst, hd, -⟩
    obtain ⟨dst', hd', -⟩ := decode_eq (.new true) new_plaintext_lawful src
    rw [hd] at hd'
    cases hp : parse true src.data with
    | incomplete => simp [FrameCodec.new, hp, Verdict.result] at hd'
    | fail e => simp [FrameCodec.new, hp, Verdict.result] at hd'
    | frame data rest =>
      obtain ⟨w, hw, -⟩ := isFrame_of_parse hp
      simp only [FrameCodec.new, hp, Verdict.result, Except.ok.injEq, Prod.mk.injEq, Option.some.injEq] at hd'
      rw [hd'.1]
      exact isFrame_encrypted_length hw
  · intro h
    have hw := parse_isFrame (frameOf_encrypted item h) []
    rw [List.append_nil] at hw
    obtain ⟨dst, hd, hk⟩ := decode_eq (P := P) (.new true) new_plaintext_lawful
      ⟨frameOf true item, _, le_refl _⟩
    simp only [FrameCodec.new, hw, Verdict.result, Verdict.kept] at hd hk
    exact ⟨_, dst, hd, hk⟩

theorem overflow_desynchronises (items : List Bytes) (item : Bytes) (hm : item ∈ items)
    (h : Overflows item) : ¬ NeverDesynchronises P items := by
  intro hn
  have hlarge : ¬ Frameable P (.new true) item := by
    rw [frameable_iff]
    have := h.1
    omega
  obtain ⟨e, he⟩ := hn.refuses item hm hlarge .empty
  obtain ⟨dst, hok, -⟩ := encode_ok (.new true) new_plaintext_lawful item .empty (fun h => nomatch h) h.2
  rw [hok] at he
  cases he

theorem encrypted_framing_iff (P : Proto) (items : List Bytes) :
    NeverDesynchronises P items ↔ ∀ item ∈ items, ¬ Overflows item := by
  constructor
  · intro hn item hm h
    exact overflow_desynchronises items item hm h hn
  intro h
  constructor
  · intro dst hd
    have hlen := encodeAll_accepts _ items _ _ hd
    obtain ⟨dst', hd', hdata⟩ := encodeAll_ok (.new true) new_plaintext_lawful items .empty
      (fun h => nomatch h) hlen
    obtain rfl : dst = dst' := by
      rw [hd] at hd'
      cases hd'
      rfl
    apply decodeAll_frames (.new true) new_plaintext_lawful _ items _ dst hdata
    apply List.forall₂_map_left_iff.mpr
    apply List.forall₂_same.mpr
    intro item hm
    have hsmall := h item hm
    have := hlen item hm
    exact frameOf_encrypted item (by unfold Overflows at hsmall; omega)
  · intro item hm hf dst
    rw [frameable_iff] at hf
    have hsmall := h item hm
    exact ⟨_, encode_tooLarge _ item dst (by unfold Overflows at hsmall; omega)⟩

theorem overflow_misread (item : Bytes) (h : Overflows item) :
    ∃ dst, (FrameCodec.new true).encodeAll P [item] .empty = .ok (.ok (), dst) ∧
      ∀ rest, (FrameCodec.new true).decodeAll P dst ≠ .ok ([item], none, rest) := by
  obtain ⟨dst, ha, -⟩ := encodeAll_ok (P := P) (.new true) new_plaintext_lawful [item] .empty
    (fun h => nomatch h) (by simpa using h.2)
  refine ⟨dst, ha, ?_⟩
  intro rest hr
  obtain ⟨out, ho, hi⟩ := decodeAll_eq (P := P) (.new true) new_plaintext_lawful dst
  obtain ⟨ws, hws, -⟩ := drain_isFrame true dst.data
  rw [hr] at ho
  cases ho
  obtain ⟨w, -, hw, -⟩ := List.forall₂_cons_right_iff.mp (hi.1 ▸ hws)
  have := isFrame_encrypted_length hw
  have := h.1
  omega

theorem item_65536_desynchronises : ¬ NeverDesynchronises wireProto [List.replicate 65536 0] := by
  intro hn
  have hitem : Overflows (List.replicate 65536 0) := by
    rw [Overflows, List.length_replicate]
    exact ⟨by decide, by decide⟩
  obtain ⟨dst, ha, hd⟩ := overflow_misread (P := wireProto) _ hitem
  obtain ⟨rest, hr, -⟩ := hn.reads_back dst ha
  exact hd rest hr

end EsphomeNativeApi.FrameEncoding
