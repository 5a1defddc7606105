import EsphomeNativeApi.Packets

/-!
The two forms of a packet against each other, and the encrypted one against what it is
to be: a type of the table, the length of the content, and the content.
-/

namespace EsphomeNativeApi.PacketPaths

open RustSemantics MessageTable Frames PacketEncrypted

variable {P : Proto} {A : Aead}

/-- The decrypted bytes are a type, the length of the content and a content of the message. -/
def WellFormed (P : Proto) (cipher : CipherState A) (ciphertext : Bytes) (message : ProtoMessage P) : Prop :=
  ∃ t₁ t₂ l₁ l₂ content, A.decrypt cipher.key cipher.n ciphertext = some (t₁ :: t₂ :: l₁ :: l₂ :: content) ∧
    l₁.toNat * 256 + l₂.toNat = content.length ∧ message.kind.mapping.typeId = t₁.toNat * 256 + t₂.toNat ∧
    P.decode message.kind content = some message.body

def StrictTotal (P : Proto) (cipher : CipherState A) (ciphertext : Bytes) : Prop :=
  ∃ result next, PacketEncrypted.packetToMessage P ciphertext cipher = .ok (result, next) ∧
    ∀ message, result = .ok message ↔ WellFormed P cipher ciphertext message

theorem wellFormed_opens {cipher : CipherState A} {ciphertext : Bytes} {message : ProtoMessage P}
    (h : WellFormed P cipher ciphertext message) :
    PacketEncrypted.packetToMessage P ciphertext cipher = .ok (.ok message, ⟨cipher.key, cipher.n + 1⟩) := by
  obtain ⟨t₁, t₂, l₁, l₂, content, hdecrypt, -, htype, hbody⟩ := h
  apply (PacketEncrypted.packetToMessage_ok_iff _ _ _ _).mpr
  exact ⟨t₁, t₂, l₁, l₂, content, hdecrypt, (parseProtoMessage_ok_iff _ _ _).mpr ⟨htype, hbody⟩, rfl⟩

theorem packetToMessage_never_errs {cipher next : CipherState A} {ciphertext : Bytes}
    {result : Except String (ProtoMessage P)}
    (h : PacketEncrypted.packetToMessage P ciphertext cipher = .ok (result, next)) :
    ∃ message, result = .ok message := by
  simp only [PacketEncrypted.packetToMessage, bind_ok_iff] at h
  obtain ⟨-, -, -, -, -, -, -, -, message, -, h⟩ := h
  cases h
  exact ⟨message, rfl⟩

theorem strict_total_iff (P : Proto) (A : Aead) (cipher : CipherState A) (ciphertext : Bytes) :
    StrictTotal P cipher ciphertext ↔ ∃ message, WellFormed P cipher ciphertext message := by
  constructor
  · rintro ⟨result, next, hopens, hstrict⟩
    obtain ⟨message, hm⟩ := packetToMessage_never_errs hopens
    exact ⟨message, (hstrict message).mp hm⟩
  · rintro ⟨message, hm⟩
    refine ⟨_, _, wellFormed_opens hm, ?_⟩
    intro other
    constructor
    · rintro ⟨⟩
      exact hm
    · intro hother
      have hsame := (wellFormed_opens hm).symm.trans (wellFormed_opens hother)
      cases hsame
      rfl

theorem empty_ciphertext_panics : ¬ StrictTotal wireProto (⟨(), 0⟩ : CipherState tagAead) [] := by
  rintro ⟨result, next, h, -⟩
  cases h

/-- The encrypted packet of a type and a payload under their matching length. -/
def sealedPacket (cipher : CipherState A) (t : ℕ) (payload : Bytes) : Bytes :=
  A.encrypt cipher.key cipher.n (u16ToBeBytes t ++ u16ToBeBytes payload.length ++ payload)

theorem u16ToBeBytes_value {t : ℕ} (h : t < 65536) :
    (UInt8.ofNat (t % 65536 / 256)).toNat * 256 + (UInt8.ofNat (t % 256)).toNat = t := by
  simp only [UInt8.toNat_ofNat']
  omega

theorem opens_sealedPacket_iff (hA : A.Lawful) (cipher : CipherState A) {t : ℕ} (ht : t < 65536)
    (payload : Bytes) (message : ProtoMessage P) :
    (∃ next, PacketEncrypted.packetToMessage P (sealedPacket cipher t payload) cipher =
      .ok (.ok message, next)) ↔ parseProtoMessage P t payload = .ok message := by
  constructor
  · rintro ⟨next, h⟩
    obtain ⟨t₁, t₂, l₁, l₂, content, hdecrypt, hparse, -⟩ :=
      (PacketEncrypted.packetToMessage_ok_iff _ _ _ _).mp h
    rw [sealedPacket, hA.decrypt_encrypt] at hdecrypt
    cases hdecrypt
    rw [u16ToBeBytes_value ht] at hparse
    exact hparse
  · intro h
    refine ⟨⟨cipher.key, cipher.n + 1⟩, ?_⟩
    apply (PacketEncrypted.packetToMessage_ok_iff _ _ _ _).mpr
    refine ⟨_, _, _, _, payload, hA.decrypt_encrypt _ _ _, ?_, rfl⟩
    rw [u16ToBeBytes_value ht]
    exact h

theorem opens_plaintext_iff {t : ℕ} (ht : t ≤ 255) (payload : Bytes) (message : ProtoMessage P) :
    PacketPlaintext.packetToMessage P (UInt8.ofNat t :: payload) = .ok (.ok message) ↔
      parseProtoMessage P t payload = .ok message := by
  have hbyte : (UInt8.ofNat t).toNat = t := by
    rw [UInt8.toNat_ofNat', Nat.mod_eq_of_lt (by omega)]
  rw [PacketPlaintext.packetToMessage_ok_iff]
  constructor
  · rintro ⟨b, content, hpacket, hparse⟩
    cases hpacket
    rwa [hbyte] at hparse
  · intro h
    refine ⟨_, _, rfl, ?_⟩
    rwa [hbyte]

theorem parsed_type_lt {t : ℕ} {payload : Bytes} {message : ProtoMessage P}
    (h : parseProtoMessage P t payload = .ok message) : t ≤ 255 := by
  have hlt := typeId_lt message.kind
  rw [(parseProtoMessage_ok h).1] at hlt
  omega

/-- Written again on either path, the message is read back. -/
def Rereads (P : Proto) (A : Aead) (message : ProtoMessage P) : Prop :=
  (∃ packet, PacketPlaintext.messageToPacket message = .ok packet ∧
    PacketPlaintext.packetToMessage P packet = .ok (.ok message)) ∧
  ∀ cipher : CipherState A, ∃ packet next, PacketEncrypted.messageToPacket message cipher = .ok (.ok packet, next) ∧
    PacketEncrypted.packetToMessage P packet cipher = .ok (.ok message, next)

theorem rereads (hP : P.Lawful) (hA : A.Lawful) (message : ProtoMessage P) : Rereads P A message := by
  constructor
  · exact ⟨_, PacketPlaintext.messageToPacket_eq message, PacketPlaintext.packetToMessage_packetOf hP message⟩
  · intro cipher
    exact ⟨_, _, PacketEncrypted.messageToPacket_eq message cipher, packetToMessage_sealed hP hA message cipher⟩

theorem paths_agree (P : Proto) (hP : P.Lawful) (A : Aead) (hA : A.Lawful) (cipher : CipherState A) :
    (∀ message : ProtoMessage P, ∃ t payload, PacketPlaintext.messageToPacket message = .ok (t :: payload) ∧
      PacketEncrypted.messageToPacket message cipher =
        .ok (.ok (sealedPacket cipher t.toNat payload), ⟨cipher.key, cipher.n + 1⟩)) ∧
    ∀ t payload, t < 65536 → payload.length ≤ 65535 → ∀ message : ProtoMessage P,
      ((∃ next, PacketEncrypted.packetToMessage P (sealedPacket cipher t payload) cipher =
          .ok (.ok message, next)) ↔
        t ≤ 255 ∧ PacketPlaintext.packetToMessage P (UInt8.ofNat t :: payload) = .ok (.ok message)) ∧
      (t ≤ 255 ∧ PacketPlaintext.packetToMessage P (UInt8.ofNat t :: payload) = .ok (.ok message) →
        (∃ number, messageToNum message = .ok number ∧ number.toNat = t) ∧ Rereads P A message) := by
  constructor
  · intro message
    refine ⟨_, _, PacketPlaintext.messageToPacket_eq message, ?_⟩
    rw [PacketEncrypted.messageToPacket_eq, PacketPlaintext.toNat_typeId, sealedPacket, contentOf]
  · intro t payload ht _ message
    constructor
    · rw [opens_sealedPacket_iff hA cipher ht]
      constructor
      · intro hparse
        have hsmall := parsed_type_lt hparse
        exact ⟨hsmall, (opens_plaintext_iff hsmall payload message).mpr hparse⟩
      · rintro ⟨hsmall, hplain⟩
        exact (opens_plaintext_iff hsmall payload message).mp hplain
    · rintro ⟨hsmall, hplain⟩
      have hparse := (opens_plaintext_iff hsmall payload message).mp hplain
      refine ⟨⟨_, rfl, ?_⟩, rereads hP hA message⟩
      rw [PacketPlaintext.toNat_typeId]
      exact (parseProtoMessage_ok hparse).1

def fourthCall : CipherState tagAead := ⟨(), 3⟩

theorem paths_agree_ping :
    (∃ next, PacketEncrypted.packetToMessage wireProto (sealedPacket fourthCall 7 []) fourthCall =
        .ok (.ok ⟨.pingRequest, []⟩, next)) ∧
      (∃ number, messageToNum (P := wireProto) ⟨.pingRequest, []⟩ = .ok number ∧ number.toNat = 7) ∧
      Rereads wireProto tagAead ⟨.pingRequest, []⟩ := by
  obtain ⟨hopens, hnumber⟩ := (paths_agree wireProto wireProto_lawful tagAead tagAead_lawful fourthCall).2 7 []
    (by decide) (by decide) ⟨.pingRequest, []⟩
  have hplain : PacketPlaintext.packetToMessage wireProto (UInt8.ofNat 7 :: []) =
      .ok (.ok ⟨.pingRequest, []⟩) := rfl
  exact ⟨hopens.mpr ⟨by decide, hplain⟩, hnumber ⟨by decide, hplain⟩⟩

end EsphomeNativeApi.PacketPaths
