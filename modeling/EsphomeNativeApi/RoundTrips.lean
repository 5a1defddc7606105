import EsphomeNativeApi.FrameEncoding
import EsphomeNativeApi.Packets

/-!
Messages that are packed, framed, cut into chunks and reassembled come back as they were.
-/

namespace EsphomeNativeApi.RoundTrips

open RustSemantics MessageTable Frames FrameFormat FrameDecoding FrameEncoding

theorem frames_of_items (encrypted : Bool) (items : List Bytes)
    (h : ∀ item ∈ items, IsFrame encrypted (frameOf encrypted item) item) :
    List.Forall₂ (IsFrame encrypted) (items.map (frameOf encrypted)) items :=
  List.forall₂_map_left_iff.mpr (List.forall₂_same.mpr h)

section Plaintext

open PacketPlaintext

theorem plaintext_round_trip (P : Proto) (hP : P.Lawful) (messages : List (ProtoMessage P))
    (hlen : ∀ message ∈ messages, ∀ packet, messageToPacket message = .ok packet →
      packet.length ≤ (FrameCodec.new false).maxLength) :
    ∃ packets wire,
      List.Forall₂ (fun message packet => messageToPacket message = .ok packet) messages packets ∧
      (FrameCodec.new false).encodeAll P packets .empty = .ok (.ok (), wire) ∧
      ∀ chunks : List Bytes, chunks.flatten = wire.data →
        ∃ rest, (FrameCodec.new false).deliver P .empty chunks = .ok (packets, none, rest) ∧
          rest.data = [] ∧
          List.Forall₂ (fun packet message => packetToMessage P packet = .ok (.ok message))
            packets messages := by
  have hitems : ∀ item ∈ messages.map packetOf,
      item ≠ [] ∧ item.length ≤ (FrameCodec.new false).maxLength := by
    simp only [List.forall_mem_map]
    exact fun message hm => ⟨packetOf_ne_nil message, hlen message hm _ (messageToPacket_eq message)⟩
  obtain ⟨wire, he, hw⟩ := encodeAll_ok (.new false) (fun _ => hP) (messages.map packetOf) .empty
    (fun _ item hi => (hitems item hi).1) (fun item hi => (hitems item hi).2)
  refine ⟨messages.map packetOf, wire, ?_, he, ?_⟩
  · apply List.forall₂_map_right_iff.mpr
    exact List.forall₂_same.mpr fun m _ => messageToPacket_eq m
  · intro chunks hc
    have hframes := frames_of_items false (messages.map packetOf) fun item hi =>
      frameOf_plaintext item (hitems item hi).1 ((hitems item hi).2.trans (by decide))
    obtain ⟨rest, hd, hr⟩ := deliver_frames (.new false) (fun _ => hP) _ _ hframes chunks (hc.trans hw)
    refine ⟨rest, hd, hr, ?_⟩
    apply List.forall₂_map_left_iff.mpr
    exact List.forall₂_same.mpr fun m _ => packetToMessage_packetOf hP m

theorem plaintext_round_trip_ping_hello :
    ∃ packets wire,
      List.Forall₂ (fun message packet => messageToPacket message = .ok packet)
        [(⟨.pingRequest, []⟩ : ProtoMessage wireProto), ⟨.helloRequest, [16, 1, 24, 10]⟩] packets ∧
      (FrameCodec.new false).encodeAll wireProto packets .empty = .ok (.ok (), wire) ∧
      ∀ chunks : List Bytes, chunks.flatten = wire.data →
        ∃ rest, (FrameCodec.new false).deliver wireProto .empty chunks = .ok (packets, none, rest) ∧
          rest.data = [] ∧
          List.Forall₂ (fun packet message => packetToMessage wireProto packet = .ok (.ok message))
            packets [⟨.pingRequest, []⟩, ⟨.helloRequest, [16, 1, 24, 10]⟩] :=
  plaintext_round_trip wireProto wireProto_lawful
    [⟨.pingRequest, []⟩, ⟨.helloRequest, [16, 1, 24, 10]⟩] (by
      simp only [List.forall_mem_cons, messageToPacket_eq, Except.ok.injEq, forall_eq']
      exact ⟨by decide, by decide, by simp⟩)

end Plaintext

section Encrypted

open PacketEncrypted

theorem packetsOf_fit {P : Proto} {A : Aead} (hA : A.Lawful) (key : A.Key) (n : ℕ)
    (messages : List (ProtoMessage P))
    (hfit : ∀ message ∈ messages, (contentOf message).length + 16 ≤ 65535) :
    ∀ packet ∈ packetsOf A key n messages, packet.length ≤ 65535 := by
  induction messages generalizing n with
  | nil => simp [packetsOf]
  | cons message messages ih =>
    obtain ⟨hm, hrest⟩ := List.forall_mem_cons.mp hfit
    rw [packetsOf_cons, List.forall_mem_cons]
    constructor
    · rw [hA.encrypt_length]
      exact hm
    · exact ih (n + 1) hrest

theorem encrypted_round_trip (P : Proto) (hP : P.Lawful) (A : Aead) (hA : A.Lawful) (key : A.Key)
    (n : ℕ) (messages : List (ProtoMessage P))
    (hfit : ∀ message ∈ messages, ∀ content, protoToVec message = .ok content →
      4 + content.length + 16 ≤ 65535) :
    ∃ packets wire,
      sealAll (⟨key, n⟩ : CipherState A) messages = .ok (packets, ⟨key, n + messages.length⟩) ∧
      packets = List.zipWith (fun nonce message => A.encrypt key nonce (contentOf message))
        (List.range' n messages.length) messages ∧
      (List.range' n messages.length).Nodup ∧
      (FrameCodec.new true).encodeAll P packets .empty = .ok (.ok (), wire) ∧
      ∀ chunks : List Bytes, chunks.flatten = wire.data →
        ∃ rest, (FrameCodec.new true).deliver P .empty chunks = .ok (packets, none, rest) ∧
          rest.data = [] ∧
          openAll P (⟨key, n⟩ : CipherState A) packets =
            .ok (messages, ⟨key, n + messages.length⟩) := by
  have hcontent : ∀ message ∈ messages, (contentOf message).length + 16 ≤ 65535 := by
    intro message hm
    rw [contentOf_length]
    exact hfit message hm _ rfl
  have hlen := packetsOf_fit hA key n messages hcontent
  obtain ⟨wire, he, hw⟩ := encodeAll_ok (.new true) (fun _ => hP) (packetsOf A key n messages) .empty
    (fun h => nomatch h) (fun packet hp => (hlen packet hp).trans (by decide))
  refine ⟨_, wire, sealAll_eq key n messages, rfl, List.nodup_range', he, ?_⟩
  intro chunks hc
  have hframes := frames_of_items true (packetsOf A key n messages) fun packet hp =>
    frameOf_encrypted packet (Nat.lt_succ_of_le (hlen packet hp))
  obtain ⟨rest, hd, hr⟩ := deliver_frames (.new true) (fun _ => hP) _ _ hframes chunks (hc.trans hw)
  exact ⟨rest, hd, hr, openAll_packetsOf hP hA key n messages⟩

theorem encrypted_round_trip_two_pings :
    ∃ packets wire,
      sealAll (⟨(), 7⟩ : CipherState tagAead)
        [(⟨.pingRequest, []⟩ : ProtoMessage wireProto), ⟨.pingRequest, []⟩] =
          .ok (packets, ⟨(), 7 + 2⟩) ∧
      packets = List.zipWith (fun nonce message => tagAead.encrypt () nonce (contentOf message))
        (List.range' 7 2) [(⟨.pingRequest, []⟩ : ProtoMessage wireProto), ⟨.pingRequest, []⟩] ∧
      (List.range' 7 2).Nodup ∧
      (FrameCodec.new true).encodeAll wireProto packets .empty = .ok (.ok (), wire) ∧
      ∀ chunks : List Bytes, chunks.flatten = wire.data →
        ∃ rest, (FrameCodec.new true).deliver wireProto .empty chunks = .ok (packets, none, rest) ∧
          rest.data = [] ∧
          openAll wireProto (⟨(), 7⟩ : CipherState tagAead) packets =
            .ok ([⟨.pingRequest, []⟩, ⟨.pingRequest, []⟩], ⟨(), 7 + 2⟩) :=
  encrypted_round_trip wireProto wireProto_lawful tagAead tagAead_lawful () 7
    [⟨.pingRequest, []⟩, ⟨.pingRequest, []⟩] (by
      simp only [List.forall_mem_cons, protoToVec, Except.ok.injEq, forall_eq']
      exact ⟨by decide, by decide⟩)

end Encrypted

end EsphomeNativeApi.RoundTrips
