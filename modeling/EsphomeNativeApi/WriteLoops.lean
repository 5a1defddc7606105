import EsphomeNativeApi.FrameEncoding
import EsphomeNativeApi.ReadLoops

/-!
The write loop of a connection. One `select!` looks at the cancellation first and at the
answers second, and the socket takes the bytes of a frame a few at a time.
-/

namespace EsphomeNativeApi.WriteLoops

open RustSemantics MessageTable Frames FrameEncoding PacketEncrypted Start Channels ReadLoops

inductive WriteState (P : Proto) where
  | pollCancellation
  | pollAnswers
  | writing (answerMessage : ProtoMessage P) (pending : Bytes)
  | stopped
  | panicked (p : Panic)

structure WriteLoop (C : Crates) where
  state : WriteState C.proto
  encryptCypher : Option (CipherState C.aead)
  wire : Bytes

variable {C : Crates}

def sealAnswer (C : Crates) (encrypted : Bool) (encryptCypher : Option (CipherState C.aead))
    (answerMessage : ProtoMessage C.proto) : Rust (Bytes × Option (CipherState C.aead)) :=
  if encrypted then do
    let cipherEncrypt ← unwrapOption encryptCypher
    let (packet, cipherEncrypt) ← PacketEncrypted.messageToPacket answerMessage cipherEncrypt
    let packet ← unwrap packet
    let pending ← send C.proto (.new true) [] packet
    .ok (pending, some cipherEncrypt)
  else do
    let packet ← unwrap (PacketPlaintext.messageToPacket answerMessage)
    let pending ← send C.proto (.new false) [] packet
    .ok (pending, encryptCypher)

def isDisconnectResponse {P : Proto} (message : ProtoMessage P) : Bool :=
  message.kind = .disconnectResponse

namespace WriteLoop

def new (encryptCypher : Option (CipherState C.aead)) : WriteLoop C := ⟨.pollCancellation, encryptCypher, []⟩

def running (w : WriteLoop C) : Bool :=
  match w.state with
  | .stopped | .panicked _ => false
  | _ => true

def pollCancellation (s : Session) (cancellation : Oneshot String) (w : WriteLoop C) : WriteLoop C :=
  match cancellation with
  | .waiting => { w with state := .pollAnswers }
  | .sent _ => { w with state := .stopped }
  -- the `unwrap` stands among the arguments of `debug!`
  | .senderDropped => { w with state := if s.debugEnabled then .panicked .unwrapErr else .stopped }

def answer (s : Session) (w : WriteLoop C) (answerMessage : ProtoMessage C.proto) : WriteLoop C :=
  match sealAnswer C s.encrypted w.encryptCypher answerMessage with
  | .error p => { w with state := .panicked p }
  | .ok (pending, encryptCypher) =>
    { w with state := .writing answerMessage pending, encryptCypher := encryptCypher }

def write (count : ℕ) (w : WriteLoop C) (answerMessage : ProtoMessage C.proto) (pending : Bytes) :
    WriteLoop C :=
  -- `count` is what the socket takes this time
  if pending.length ≤ count then
    { w with
      wire := w.wire ++ pending
      state := if isDisconnectResponse answerMessage then .stopped else .pollCancellation }
  else
    { w with
      wire := w.wire ++ pending.take count
      state := .writing answerMessage (pending.drop count) }

end WriteLoop

/-- The packet of an answer, where it passes the size check of `encode`. In encrypted mode
it is sealed with the next nonce. -/
inductive Seals (C : Crates) : Bool → Option (CipherState C.aead) → ProtoMessage C.proto → Bytes →
    Option (CipherState C.aead) → Prop where
  | plaintext (k : Option (CipherState C.aead)) (message : ProtoMessage C.proto)
      (short : (PacketPlaintext.packetOf message).length ≤ (FrameCodec.new false).maxLength) :
      Seals C false k message (PacketPlaintext.packetOf message) k
  | encrypted (key : C.aead.Key) (n : ℕ) (message : ProtoMessage C.proto)
      (short : (C.aead.encrypt key n (contentOf message)).length ≤ (FrameCodec.new true).maxLength) :
      Seals C true (some ⟨key, n⟩) message (C.aead.encrypt key n (contentOf message)) (some ⟨key, n + 1⟩)

theorem send_ok_iff {P : Proto} (hP : P.Lawful) (encrypted : Bool) (packet bytes : Bytes)
    (hne : encrypted = false → packet ≠ []) :
    send P (.new encrypted) [] packet = .ok bytes ↔
      packet.length ≤ (FrameCodec.new encrypted).maxLength ∧ bytes = frameOf encrypted packet := by
  by_cases h : packet.length ≤ (FrameCodec.new encrypted).maxLength
  · obtain ⟨dst, he, hd⟩ := encode_ok (.new encrypted) (fun _ => hP) packet .empty hne h
    simp only [send, he, ok_bind, unwrap_ok, hd, BytesMut.empty_data, List.nil_append, h, true_and]
    exact ⟨fun h => (Except.ok.inj h).symm, fun h => by rw [h]; rfl⟩
  · have he := encode_tooLarge (P := P) (.new encrypted) packet .empty (not_le.mp h)
    simp [send, he, h]

theorem sealAnswer_ok_iff (hP : C.proto.Lawful) (encrypted : Bool) (k k' : Option (CipherState C.aead))
    (message : ProtoMessage C.proto) (bytes : Bytes) :
    sealAnswer C encrypted k message = .ok (bytes, k') ↔
      ∃ packet, Seals C encrypted k message packet k' ∧ bytes = frameOf encrypted packet := by
  cases encrypted with
  | false =>
    have hsend := send_ok_iff hP false (PacketPlaintext.packetOf message) bytes
      fun _ => PacketPlaintext.packetOf_ne_nil message
    have hseal : sealAnswer C false k message = .ok (bytes, k') ↔
        send C.proto (.new false) [] (PacketPlaintext.packetOf message) = .ok bytes ∧ k = k' := by
      simp only [sealAnswer, Bool.false_eq_true, ↓reduceIte, PacketPlaintext.messageToPacket_eq,
        unwrap_ok, ok_bind, bind_ok_iff, Except.ok.injEq, Prod.mk.injEq, ↓existsAndEq, true_and]
    rw [hseal, hsend]
    constructor
    · rintro ⟨⟨hshort, rfl⟩, rfl⟩
      exact ⟨_, .plaintext k message hshort, rfl⟩
    · rintro ⟨packet, hs, rfl⟩
      cases hs with
      | plaintext _ _ hshort => exact ⟨⟨hshort, rfl⟩, rfl⟩
  | true =>
    cases k with
    | none =>
      constructor
      · intro h
        cases h
      · rintro ⟨packet, hs, -⟩
        cases hs
    | some cipher =>
      have hsend := send_ok_iff hP true (C.aead.encrypt cipher.key cipher.n (contentOf message)) bytes
        (fun h => nomatch h)
      have hseal : sealAnswer C true (some cipher) message = .ok (bytes, k') ↔
          send C.proto (.new true) [] (C.aead.encrypt cipher.key cipher.n (contentOf message)) = .ok bytes ∧
            some ⟨cipher.key, cipher.n + 1⟩ = k' := by
        simp only [sealAnswer, ↓reduceIte, unwrapOption_some, PacketEncrypted.messageToPacket_eq,
          unwrap_ok, ok_bind, bind_ok_iff, Except.ok.injEq, Prod.mk.injEq, ↓existsAndEq, true_and]
      rw [hseal, hsend]
      constructor
      · rintro ⟨⟨hshort, rfl⟩, rfl⟩
        exact ⟨_, .encrypted cipher.key cipher.n message hshort, rfl⟩
      · rintro ⟨packet, hs, rfl⟩
        cases hs with
        | encrypted _ _ _ hshort => exact ⟨⟨hshort, rfl⟩, rfl⟩

def Encodable (C : Crates) : Bool → ProtoMessage C.proto → Prop
  | false, message => (PacketPlaintext.packetOf message).length ≤ (FrameCodec.new false).maxLength
  | true, message => (contentOf message).length + 16 ≤ (FrameCodec.new true).maxLength

theorem seals_encodable (hA : C.aead.Lawful) {encrypted : Bool} {k k' : Option (CipherState C.aead)}
    {message : ProtoMessage C.proto} {packet : Bytes} (h : Seals C encrypted k message packet k') :
    Encodable C encrypted message := by
  cases h with
  | plaintext _ _ short => exact short
  | encrypted key n _ short =>
    rw [hA.encrypt_length] at short
    exact short

theorem encodable_seals (hA : C.aead.Lawful) {encrypted : Bool} {k : Option (CipherState C.aead)}
    (hk : encrypted = true → k.isSome) {message : ProtoMessage C.proto}
    (h : Encodable C encrypted message) : ∃ packet k', Seals C encrypted k message packet k' := by
  cases encrypted with
  | false => exact ⟨_, _, .plaintext k message h⟩
  | true =>
    obtain ⟨cipher, rfl⟩ := Option.isSome_iff_exists.mp (hk rfl)
    exact ⟨_, _, .encrypted cipher.key cipher.n message (by rw [hA.encrypt_length]; exact h)⟩

end EsphomeNativeApi.WriteLoops
