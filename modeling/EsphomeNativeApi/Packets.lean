import EsphomeNativeApi.Frames

/-!
Packets: the type number and the protobuf content of a message, in the clear or sealed
by the connection's cipher.
-/

namespace EsphomeNativeApi.PacketPlaintext

open RustSemantics MessageTable

variable {P : Proto}

def packetToMessage (P : Proto) (buffer : Bytes) : Rust (Except String (ProtoMessage P)) := do
  let messageType ← index buffer 0
  let packetContent ← sliceFrom buffer 1
  let message ← unwrap (parseProtoMessage P messageType.toNat packetContent)
  .ok (.ok message)

def messageToPacket (message : ProtoMessage P) : Except String Bytes := do
  let responseContent ← protoToVec message
  let messageType ← messageToNum message
  .ok ([messageType] ++ responseContent)

def packetOf (message : ProtoMessage P) : Bytes :=
  UInt8.ofNat message.kind.mapping.typeId :: P.encodeToVec message.kind message.body

theorem messageToPacket_eq (message : ProtoMessage P) :
    messageToPacket message = .ok (packetOf message) := rfl

theorem packetOf_ne_nil (message : ProtoMessage P) : packetOf message ≠ [] := List.cons_ne_nil _ _

theorem toNat_typeId (k : MessageKind) : (UInt8.ofNat k.mapping.typeId).toNat = k.mapping.typeId := by
  rw [UInt8.toNat_ofNat', Nat.mod_eq_of_lt (typeId_lt k)]

theorem packetToMessage_cons (t : UInt8) (content : Bytes) :
    packetToMessage P (t :: content) =
      unwrap (parseProtoMessage P t.toNat content) >>= fun message => .ok (.ok message) := by
  simp [packetToMessage, sliceFrom]

theorem packetToMessage_ok_iff (buffer : Bytes) (message : ProtoMessage P) :
    packetToMessage P buffer = .ok (.ok message) ↔
      ∃ t content, buffer = t :: content ∧ parseProtoMessage P t.toNat content = .ok message := by
  cases buffer with
  | nil => simp [packetToMessage, index]
  | cons t content =>
    rw [packetToMessage_cons]
    cases hm : parseProtoMessage P t.toNat content with
    | error e => simp [hm]
    | ok m => simp [hm]

theorem packetToMessage_packetOf (hP : P.Lawful) (message : ProtoMessage P) :
    packetToMessage P (packetOf message) = .ok (.ok message) := by
  rw [packetOf, packetToMessage_cons, toNat_typeId, parse_protoToVec hP, unwrap_ok, ok_bind]

end EsphomeNativeApi.PacketPlaintext

namespace EsphomeNativeApi.PacketEncrypted

open RustSemantics MessageTable Frames

structure Aead where
  Key : Type
  encrypt : Key → ℕ → Bytes → Bytes
  decrypt : Key → ℕ → Bytes → Option Bytes

structure Aead.Lawful (A : Aead) : Prop where
  decrypt_encrypt : ∀ key n plaintext, A.decrypt key n (A.encrypt key n plaintext) = some plaintext
  encrypt_length : ∀ key n plaintext, (A.encrypt key n plaintext).length = plaintext.length + 16

/-- The Noise library's `CipherState`: a key and the number of calls so far, which it
keeps in a `u64` and is taken not to overflow. -/
structure CipherState (A : Aead) where
  key : A.Key
  n : ℕ

variable {P : Proto} {A : Aead}

def CipherState.encryptVec (cipher : CipherState A) (plaintext : Bytes) : Bytes × CipherState A :=
  (A.encrypt cipher.key cipher.n plaintext, ⟨cipher.key, cipher.n + 1⟩)

def CipherState.decryptVec (cipher : CipherState A) (ciphertext : Bytes) :
    Except Unit Bytes × CipherState A :=
  match A.decrypt cipher.key cipher.n ciphertext with
  | some plaintext => (.ok plaintext, ⟨cipher.key, cipher.n + 1⟩)
  | none => (.error (), cipher)

def generateServerHelloFrame (name : String) (mac : Option String) : Bytes :=
  [1] ++ asBytes name ++
    (match mac with
    | some mac => [0] ++ asBytes mac
    | none => []) ++ [0]

def packetToMessage (P : Proto) (buffer : Bytes) (cipherDecrypt : CipherState A) :
    Rust (Except String (ProtoMessage P) × CipherState A) := do
  let decryptedMessageFrame ← unwrap (cipherDecrypt.decryptVec buffer).1
  let messageType ← readU16 (← slice decryptedMessageFrame 0 2)
  let packetContent ← sliceFrom decryptedMessageFrame 4
  let message ← unwrap (parseProtoMessage P messageType packetContent)
  .ok (.ok message, (cipherDecrypt.decryptVec buffer).2)

def messageToPacket (message : ProtoMessage P) (cipherEncrypt : CipherState A) :
    Rust (Except String Bytes × CipherState A) :=
  match protoToVec message with
  | .error e => .ok (.error e, cipherEncrypt)
  | .ok responseContent => do
    let messageType := u16ToBeBytes (← unwrap (messageToNum message)).toNat
    let messageLength := u16ToBeBytes responseContent.length
    let unencryptedMessageFrame := messageType ++ messageLength ++ responseContent
    let (packet, cipherEncrypt) := cipherEncrypt.encryptVec unencryptedMessageFrame
    .ok (.ok packet, cipherEncrypt)

def contentOf (message : ProtoMessage P) : Bytes :=
  u16ToBeBytes message.kind.mapping.typeId ++
    u16ToBeBytes (P.encodeToVec message.kind message.body).length ++
    P.encodeToVec message.kind message.body

theorem messageToPacket_eq (message : ProtoMessage P) (cipher : CipherState A) :
    messageToPacket message cipher = .ok (.ok (A.encrypt cipher.key cipher.n (contentOf message)),
      ⟨cipher.key, cipher.n + 1⟩) := by
  simp [messageToPacket, protoToVec, messageToNum, CipherState.encryptVec, contentOf,
    Nat.mod_eq_of_lt (typeId_lt message.kind)]

theorem contentOf_length (message : ProtoMessage P) :
    (contentOf message).length = 4 + (P.encodeToVec message.kind message.body).length := by
  simp [contentOf, u16ToBeBytes]
  omega

theorem packetToMessage_ok_iff (buffer : Bytes) (cipher next : CipherState A) (message : ProtoMessage P) :
    packetToMessage P buffer cipher = .ok (.ok message, next) ↔
      ∃ t₁ t₂ l₁ l₂ content, A.decrypt cipher.key cipher.n buffer = some (t₁ :: t₂ :: l₁ :: l₂ :: content) ∧
        parseProtoMessage P (t₁.toNat * 256 + t₂.toNat) content = .ok message ∧
        next = ⟨cipher.key, cipher.n + 1⟩ := by
  unfold packetToMessage CipherState.decryptVec
  cases hd : A.decrypt cipher.key cipher.n buffer with
  | none => simp
  | some frame =>
    match frame with
    | [] => simp [slice]
    | [_] => simp [slice]
    | [_, _] => simp [slice, readU16, sliceFrom]
    | [_, _, _] => simp [slice, readU16, sliceFrom]
    | t₁ :: t₂ :: l₁ :: l₂ :: content =>
      cases hm : parseProtoMessage P (t₁.toNat * 256 + t₂.toNat) content with
      | error e => simp [slice, readU16, sliceFrom, hm]
      | ok m => simp [slice, readU16, sliceFrom, hm, eq_comm]

theorem packetToMessage_sealed (hP : P.Lawful) (hA : A.Lawful) (message : ProtoMessage P)
    (cipher : CipherState A) :
    packetToMessage P (A.encrypt cipher.key cipher.n (contentOf message)) cipher =
      .ok (.ok message, ⟨cipher.key, cipher.n + 1⟩) := by
  have ht : (UInt8.ofNat (message.kind.mapping.typeId % 65536 / 256)).toNat * 256 +
      (UInt8.ofNat (message.kind.mapping.typeId % 256)).toNat = message.kind.mapping.typeId := by
    have := typeId_lt message.kind
    simp only [UInt8.toNat_ofNat']
    omega
  apply (packetToMessage_ok_iff _ _ _ _).mpr
  refine ⟨_, _, _, _, _, hA.decrypt_encrypt _ _ _, ?_, rfl⟩
  rw [ht]
  exact parse_protoToVec hP message

def sealAll (cipher : CipherState A) : List (ProtoMessage P) → Rust (List Bytes × CipherState A)
  | [] => .ok ([], cipher)
  | message :: messages => do
    let (packet, cipher) ← messageToPacket message cipher
    let packet ← unwrap packet
    let (packets, cipher) ← sealAll cipher messages
    .ok (packet :: packets, cipher)

def openAll (P : Proto) (cipher : CipherState A) :
    List Bytes → Rust (List (ProtoMessage P) × CipherState A)
  | [] => .ok ([], cipher)
  | packet :: packets => do
    let (message, cipher) ← packetToMessage P packet cipher
    let message ← unwrap message
    let (messages, cipher) ← openAll P cipher packets
    .ok (message :: messages, cipher)

theorem sealAll_snoc {cipher cipher' : CipherState A} {messages : List (ProtoMessage P)}
    {packets : List Bytes} (h : sealAll cipher messages = .ok (packets, cipher'))
    (message : ProtoMessage P) :
    sealAll cipher (messages ++ [message]) =
      .ok (packets ++ [A.encrypt cipher'.key cipher'.n (contentOf message)],
        ⟨cipher'.key, cipher'.n + 1⟩) := by
  induction messages generalizing cipher packets with
  | nil =>
    cases h
    simp [sealAll, messageToPacket_eq]
  | cons m messages ih =>
    simp only [sealAll, messageToPacket_eq, ok_bind, unwrap_ok] at h
    obtain ⟨⟨more, last⟩, hm, h⟩ := (bind_ok_iff _ _ _).mp h
    cases h
    simp [sealAll, messageToPacket_eq, ih hm]

def packetsOf (A : Aead) (key : A.Key) (n : ℕ) (messages : List (ProtoMessage P)) : List Bytes :=
  List.zipWith (fun nonce message => A.encrypt key nonce (contentOf message))
    (List.range' n messages.length) messages

theorem packetsOf_cons (key : A.Key) (n : ℕ) (message : ProtoMessage P) (messages : List (ProtoMessage P)) :
    packetsOf A key n (message :: messages) =
      A.encrypt key n (contentOf message) :: packetsOf A key (n + 1) messages := rfl

theorem sealAll_eq (key : A.Key) (n : ℕ) (messages : List (ProtoMessage P)) :
    sealAll ⟨key, n⟩ messages = .ok (packetsOf A key n messages, ⟨key, n + messages.length⟩) := by
  induction messages generalizing n with
  | nil => rfl
  | cons message messages ih =>
    simp only [sealAll, messageToPacket_eq, ok_bind, unwrap_ok, ih, packetsOf_cons, List.length_cons]
    rw [Nat.add_right_comm, Nat.add_assoc]

theorem openAll_packetsOf (hP : P.Lawful) (hA : A.Lawful) (key : A.Key) (n : ℕ)
    (messages : List (ProtoMessage P)) :
    openAll P ⟨key, n⟩ (packetsOf A key n messages) = .ok (messages, ⟨key, n + messages.length⟩) := by
  induction messages generalizing n with
  | nil => rfl
  | cons message messages ih =>
    have hopen := packetToMessage_sealed hP hA message ⟨key, n⟩
    simp only [packetsOf_cons, openAll, hopen, ok_bind, unwrap_ok, ih, List.length_cons]
    rw [Nat.add_right_comm, Nat.add_assoc]

def tagAead : Aead where
  Key := Unit
  encrypt _ n plaintext := plaintext ++ List.replicate 16 (UInt8.ofNat n)
  decrypt _ n ciphertext :=
    if ciphertext.drop (ciphertext.length - 16) = List.replicate 16 (UInt8.ofNat n) then
      some (ciphertext.take (ciphertext.length - 16))
    else none

theorem tagAead_lawful : tagAead.Lawful where
  decrypt_encrypt _ n plaintext := by simp [tagAead]
  encrypt_length _ n plaintext := by simp [tagAead]

end EsphomeNativeApi.PacketEncrypted
