import EsphomeNativeApi.FrameEncoding
import EsphomeNativeApi.Start

/-!
How `start` deals with each kind of client stream: what it reads of it, and the run that
comes of each handshake.
-/

namespace EsphomeNativeApi.Handshake

open RustSemantics MessageTable Frames FrameFormat FrameDecoding FrameEncoding Framing
open PacketEncrypted Api Start

variable {C : Crates}

theorem next_eq (P : Proto) (c : FrameCodec) (hP : c.encrypted = false → P.Lawful) (src : BytesMut)
    (chunks : List Bytes) :
    ∃ frame src' chunks', next P c src chunks = .ok (frame, src', chunks') ∧
      match parse c.encrypted (src.data ++ chunks.flatten) with
      | .frame data rest => frame = some (.ok data) ∧ src'.data ++ chunks'.flatten = rest
      | _ => ∀ data, frame ≠ some (.ok data) := by
  induction chunks generalizing src with
  | nil =>
    obtain ⟨dst, hd, hk⟩ := decodeEof_eq c hP src
    rw [List.flatten_nil, List.append_nil, next, hd, ok_bind]
    cases hp : parse c.encrypted src.data with
    | incomplete =>
      by_cases he : src.data = []
      · exact ⟨none, dst, [], by rw [if_pos he], by simp⟩
      · exact ⟨some (.error bytesRemaining), dst, [], by rw [if_neg he], by simp⟩
    | fail e => exact ⟨some (.error e), dst, [], rfl, by simp⟩
    | frame data rest =>
      rw [hp] at hk
      exact ⟨some (.ok data), dst, [], rfl, rfl, by simpa [Verdict.kept] using hk⟩
  | cons chunk chunks ih =>
    obtain ⟨dst, hd, hk⟩ := decode_eq c hP src
    rw [next, hd, ok_bind]
    cases hp : parse c.encrypted src.data with
    | incomplete =>
      rw [hp] at hk
      have hdata : dst.data = src.data := hk
      obtain ⟨frame, src', chunks', hn, hm⟩ := ih (dst.extendFromSlice P.growth chunk)
      rw [BytesMut.extendFromSlice_data, hdata, List.append_assoc] at hm
      exact ⟨frame, src', chunks', hn, hm⟩
    | fail e =>
      refine ⟨some (.error e), dst, _, rfl, ?_⟩
      rw [parse_fail_append _ hp]
      simp
    | frame data rest =>
      rw [hp] at hk
      have hdata : dst.data = rest := hk
      refine ⟨some (.ok data), dst, _, rfl, ?_⟩
      obtain ⟨w, hw, hs⟩ := isFrame_of_parse hp
      rw [hs, List.append_assoc, parse_isFrame hw]
      exact ⟨rfl, by rw [hdata]⟩

theorem nextFrame_frame {P : Proto} {c : FrameCodec} (hP : c.encrypted = false → P.Lawful)
    (src : BytesMut) (chunks : List Bytes) {data rest : Bytes}
    (h : parse c.encrypted (src.data ++ chunks.flatten) = .frame data rest) :
    ∃ src' chunks', nextFrame P c src chunks = .ok (data, src', chunks') ∧
      src'.data ++ chunks'.flatten = rest := by
  obtain ⟨frame, src', chunks', hn, hm⟩ := next_eq P c hP src chunks
  rw [h] at hm
  obtain ⟨rfl, hr⟩ := hm
  exact ⟨src', chunks', by rw [nextFrame, hn]; rfl, hr⟩

theorem nextFrame_panics {P : Proto} {c : FrameCodec} (hP : c.encrypted = false → P.Lawful)
    {src : BytesMut} {chunks : List Bytes}
    (h : ∀ data rest, parse c.encrypted (src.data ++ chunks.flatten) ≠ .frame data rest) :
    ∃ p, nextFrame P c src chunks = .error p := by
  obtain ⟨frame, src', chunks', hn, hm⟩ := next_eq P c hP src chunks
  have hnone : ∀ data, frame ≠ some (.ok data) := by
    cases hp : parse c.encrypted (src.data ++ chunks.flatten) with
    | frame data rest => exact absurd hp (h data rest)
    | incomplete => rw [hp] at hm; exact hm
    | fail e => rw [hp] at hm; exact hm
  match frame with
  | none => exact ⟨.unwrapNone, by rw [nextFrame, hn]; rfl⟩
  | some (.error e) => exact ⟨.unwrapErr, by rw [nextFrame, hn]; rfl⟩
  | some (.ok data) => exact absurd rfl (hnone data)

theorem send_ok (P : Proto) (wire item : Bytes) (h : item.length ≤ (FrameCodec.new true).maxLength) :
    send P (.new true) wire item = .ok (wire ++ frameOf true item) := by
  obtain ⟨dst, he, hd⟩ := encode_ok (P := P) (.new true) new_plaintext_lawful item .empty
    (fun h => nomatch h) h
  simp only [send, he, ok_bind, unwrap_ok, hd, BytesMut.empty_data, List.nil_append]
  rfl

theorem send_tooLarge (P : Proto) (wire item : Bytes) (h : (FrameCodec.new true).maxLength < item.length) :
    send P (.new true) wire item = .error .unwrapErr := by
  simp only [send, encode_tooLarge _ item _ h, ok_bind, unwrap_error, error_bind]

def ClientHandshake (stream hello request rest : Bytes) : Prop :=
  ∃ w₁ w₂, IsFrame true w₁ hello ∧ IsFrame true w₂ request ∧ stream = w₁ ++ w₂ ++ rest

theorem clientHandshake_iff (stream hello request rest : Bytes) :
    ClientHandshake stream hello request rest ↔
      ∃ mid, parse true stream = .frame hello mid ∧ parse true mid = .frame request rest := by
  constructor
  · rintro ⟨w₁, w₂, h₁, h₂, rfl⟩
    exact ⟨w₂ ++ rest, by rw [List.append_assoc]; exact parse_isFrame h₁ _, parse_isFrame h₂ _⟩
  · rintro ⟨mid, h₁, h₂⟩
    obtain ⟨w₁, hw₁, rfl⟩ := isFrame_of_parse h₁
    obtain ⟨w₂, hw₂, rfl⟩ := isFrame_of_parse h₂
    exact ⟨w₁, w₂, hw₁, hw₂, by rw [List.append_assoc]⟩

def HelloFits (api : EspHomeApi) : Prop :=
  (generateServerHelloFrame api.name api.mac).length ≤ (FrameCodec.new true).maxLength

theorem handshake_eq (api : EspHomeApi) (key : String) (chunks : List Bytes)
    (hello request rest : Bytes) (hc : ClientHandshake chunks.flatten hello request rest)
    (hfits : HelloFits api) :
    ∃ src chunks', handshake C api key chunks =
        readRequest C key (frameOf true (generateServerHelloFrame api.name api.mac)) request src chunks' ∧
      src.data ++ chunks'.flatten = rest := by
  obtain ⟨mid, h₁, h₂⟩ := (clientHandshake_iff _ _ _ _).mp hc
  obtain ⟨src₁, chunks₁, hn₁, rfl⟩ := nextFrame_frame (P := C.proto) (c := .new true)
    new_plaintext_lawful .empty chunks h₁
  obtain ⟨src₂, chunks₂, hn₂, hrest⟩ := nextFrame_frame (P := C.proto) (c := .new true)
    new_plaintext_lawful src₁ chunks₁ h₂
  refine ⟨src₂, chunks₂, ?_, hrest⟩
  simp only [handshake, hn₁, ok_bind, send_ok C.proto [] _ hfits, hn₂, List.nil_append]

theorem handshake_panics (api : EspHomeApi) (key : String) (chunks : List Bytes)
    (h : (∀ hello request rest, ¬ ClientHandshake chunks.flatten hello request rest) ∨ ¬ HelloFits api) :
    ∃ p, handshake C api key chunks = .error p := by
  by_cases hhello : ∃ hello mid, parse true chunks.flatten = .frame hello mid
  · obtain ⟨hello, mid, h₁⟩ := hhello
    obtain ⟨src₁, chunks₁, hn₁, rfl⟩ := nextFrame_frame (P := C.proto) (c := .new true)
      new_plaintext_lawful .empty chunks h₁
    by_cases hfits : HelloFits api
    · have hrequest : ∀ request rest, parse true (src₁.data ++ chunks₁.flatten) ≠ .frame request rest := by
        intro request rest h₂
        rcases h with hc | hn
        · apply hc hello request rest
          exact (clientHandshake_iff _ _ _ _).mpr ⟨_, h₁, h₂⟩
        · exact hn hfits
      obtain ⟨p, hp⟩ := nextFrame_panics (P := C.proto) (c := .new true) new_plaintext_lawful hrequest
      exact ⟨p, by simp only [handshake, hn₁, ok_bind, send_ok C.proto [] _ hfits, hp, error_bind]⟩
    · have hlarge := send_tooLarge C.proto [] _ (not_le.mp hfits)
      exact ⟨.unwrapErr, by simp only [handshake, hn₁, ok_bind, hlarge, error_bind]⟩
  · have hnone : ∀ hello mid, parse true (BytesMut.empty.data ++ chunks.flatten) ≠ .frame hello mid :=
      fun hello mid h₁ => hhello ⟨hello, mid, h₁⟩
    obtain ⟨p, hp⟩ := nextFrame_panics (P := C.proto) (c := .new true) new_plaintext_lawful hnone
    exact ⟨p, by simp only [handshake, hp, error_bind]⟩

theorem handshake_ok {api : EspHomeApi} {key : String} {chunks : List Bytes} {run : StartRun C}
    (h : handshake C api key chunks = .ok run) :
    ∃ hello request src chunks', HelloFits api ∧
      ClientHandshake chunks.flatten hello request (src.data ++ chunks'.flatten) ∧
      readRequest C key (frameOf true (generateServerHelloFrame api.name api.mac)) request src chunks' =
        .ok run := by
  by_contra hnot
  have hpanics : ∃ p, handshake C api key chunks = .error p := by
    apply handshake_panics api key chunks
    by_contra hboth
    simp only [not_or, not_forall, not_not] at hboth
    obtain ⟨⟨hello, request, rest, hc⟩, hfits⟩ := hboth
    obtain ⟨src, chunks', he, rfl⟩ := handshake_eq (C := C) api key chunks hello request rest hc hfits
    exact hnot ⟨hello, request, src, chunks', hfits, hc, by rw [← he, h]⟩
  obtain ⟨p, hp⟩ := hpanics
  rw [h] at hp
  cases hp

def refusal (C : Crates) (wire : Bytes) (message error : String) : StartRun C :=
  ⟨wire ++ frameOf true (errorPacket message), true, .error error⟩

def acceptance (wire out : Bytes) (src : BytesMut) (incoming : List Bytes)
    (st : C.noise.HandshakeState) : StartRun C :=
  ⟨wire ++ frameOf true ([0] ++ out), false, .ok ⟨true, src, incoming,
    some (C.noise.getCiphers st).2, some (C.noise.getCiphers st).1⟩⟩

structure Readable (C : Crates) (key : String) (request : Bytes) (st : C.noise.HandshakeState) :
    Prop where
  psk : ∃ psk, C.base64Decode key = some psk ∧ C.noise.pushPsk C.noise.new psk = .ok st
  long : 1 + C.noise.overhead ≤ request.length

section ReadRequest

variable {key : String} {wire request : Bytes} {src : BytesMut} {incoming : List Bytes}

theorem writeErrorAndDisconnect_eq (message error : String)
    (h : (errorPacket message).length ≤ (FrameCodec.new true).maxLength) :
    writeErrorAndDisconnect C (.new true) wire message error = .ok (refusal C wire message error) := by
  simp only [writeErrorAndDisconnect, send_ok C.proto wire _ h, ok_bind]
  rfl

theorem finishHandshake_ok_iff (hC : C.Lawful) (st : C.noise.HandshakeState) (run : StartRun C) :
    finishHandshake C wire src incoming st = .ok run ↔
      ∃ out st', C.noise.writeMessageVec st [] = .ok (.ok out, st') ∧
        run = acceptance wire out src incoming st' := by
  unfold finishHandshake
  cases hw : C.noise.writeMessageVec st [] with
  | error p => simp
  | ok written =>
    obtain ⟨out, st'⟩ := written
    cases out with
    | error e => simp
    | ok out =>
      have hfit : ([0] ++ out).length ≤ (FrameCodec.new true).maxLength := by
        have := hC.noise.write_length st out st' hw
        simp only [List.cons_append, List.nil_append, List.length_cons, FrameCodec.new]
        omega
      simp only [ok_bind, unwrap_ok, send_ok C.proto wire _ hfit, Except.ok.injEq]
      constructor
      · rintro rfl
        exact ⟨out, st', rfl, rfl⟩
      · rintro ⟨_, _, h, rfl⟩
        cases h
        rfl

theorem readRequest_eq {st : C.noise.HandshakeState} (h : Readable C key request st) :
    readRequest C key wire request src incoming =
      match C.noise.readMessageVec st (request.drop 1) with
      | (.error .decryption, _) => .ok (refusal C wire errorHandshakeMacFailure errorHandshakeMacFailure)
      | (_, st') => finishHandshake C wire src incoming st' := by
  obtain ⟨⟨psk, hk, hp⟩, hlong⟩ := h
  have hslice : sliceFrom request 1 = .ok (request.drop 1) := sliceFrom_eq_ok _ _ (by omega)
  simp only [readRequest, hk, unwrapOption_some, hp, hslice, ok_bind,
    writeErrorAndDisconnect_eq errorHandshakeMacFailure errorHandshakeMacFailure (by decide)]
  rcases C.noise.readMessageVec st (request.drop 1) with ⟨⟨_ | _⟩ | _, st'⟩ <;> rfl

theorem readRequest_readable (hC : C.Lawful) {run : StartRun C}
    (h : readRequest C key wire request src incoming = .ok run) : ∃ st, Readable C key request st := by
  obtain ⟨psk, hk, h⟩ := (bind_ok_iff _ _ _).mp h
  obtain ⟨st, hp, h⟩ := (bind_ok_iff _ _ _).mp h
  obtain ⟨payload, hs, h⟩ := (bind_ok_iff _ _ _).mp h
  have hkey : C.base64Decode key = some psk := by
    cases hd : C.base64Decode key with
    | none => simp [hd] at hk
    | some psk' => simpa [hd] using hk
  have hpayload : 1 ≤ request.length ∧ request.drop 1 = payload := by
    unfold sliceFrom at hs
    split_ifs at hs with hle
    cases hs
    exact ⟨hle, rfl⟩
  obtain ⟨hne, rfl⟩ := hpayload
  refine ⟨st, ⟨psk, hkey, hp⟩, ?_⟩
  by_contra hshort
  -- the short request is not an error here, so the responder writes out of turn
  rw [hC.noise.read_short st (request.drop 1) (by rw [List.length_drop]; omega)] at h
  obtain ⟨out, st', hw, -⟩ := (finishHandshake_ok_iff hC st run).mp h
  have hturn := hC.noise.write_turn st [] out st' hw
  rw [hC.noise.first_turn psk st hp] at hturn
  cases hturn

/-- A request long enough can only fail to decrypt. -/
theorem Readable.decryption (hC : C.Lawful) {st st' : C.noise.HandshakeState} {e : NoiseError}
    (hst : Readable C key request st) (hr : C.noise.readMessageVec st (request.drop 1) = (.error e, st')) :
    e = .decryption := by
  obtain ⟨⟨psk, -, hp⟩, hlong⟩ := hst
  by_contra hne
  have hshort := hC.noise.read_error psk st _ e st' hp hr hne
  rw [List.length_drop] at hshort
  omega

theorem readRequest_cases (hC : C.Lawful) {run : StartRun C} {st : C.noise.HandshakeState}
    (hst : Readable C key request st) :
    readRequest C key wire request src incoming = .ok run ↔
      (∃ st', C.noise.readMessageVec st (request.drop 1) = (.error .decryption, st') ∧
        run = refusal C wire errorHandshakeMacFailure errorHandshakeMacFailure) ∨
      ∃ payload st' out st'', C.noise.readMessageVec st (request.drop 1) = (.ok payload, st') ∧
        C.noise.writeMessageVec st' [] = .ok (.ok out, st'') ∧
        run = acceptance wire out src incoming st'' := by
  rw [readRequest_eq hst]
  cases hr : C.noise.readMessageVec st (request.drop 1) with
  | mk result st' =>
    cases result with
    | ok payload => simp [finishHandshake_ok_iff hC]
    | error e => simp [hst.decryption hC hr, eq_comm]

end ReadRequest

section Preamble

variable {api : EspHomeApi} {chunks : List Bytes} {preamble : UInt8}

theorem start_of_head (h : chunks.flatten.head? = some preamble) :
    start C api chunks =
      if preamble = 0 then
        if api.encryptionKey.isSome then .ok (refusal C [] errorOnlyEncrypted errorOnlyEncrypted)
        else .ok ⟨[], false, .ok ⟨false, .empty, chunks, none, none⟩⟩
      else if preamble = 1 then
        match api.encryptionKey with
        | none => .ok (refusal C [] noEncryptionAllowed noEncryptionKey)
        | some encryptionKey => handshake C api encryptionKey chunks
      else .ok ⟨[], false, .error ("Invalid marker byte " ++ toString preamble.toNat)⟩ := by
  rw [← fillBuf_head] at h
  obtain ⟨rest, hf⟩ := List.head?_eq_some_iff.mp h
  have hplaintext : (errorPacket errorOnlyEncrypted).length ≤ (FrameCodec.new true).maxLength := by decide
  have hkeyless : (errorPacket noEncryptionAllowed).length ≤ (FrameCodec.new true).maxLength := by decide
  cases hk : api.encryptionKey <;>
    simp only [start, hf, hk, writeErrorAndDisconnect_eq _ _ hplaintext, writeErrorAndDisconnect_eq _ _ hkeyless]

theorem start_empty (h : chunks.flatten = []) :
    start C api chunks = .ok ⟨[], false, .error "No data"⟩ := by
  have hf : fillBuf chunks = [] := by
    rw [← List.head?_eq_none_iff, fillBuf_head, h]
    rfl
  rw [start, hf]

end Preamble

end EsphomeNativeApi.Handshake
