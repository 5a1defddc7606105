import EsphomeNativeApi.ReadLoops

/-!
Byte streams that are nothing but messages: whole frames, each of which carries a message.
-/

namespace EsphomeNativeApi.ClientTraffic

open RustSemantics MessageTable Frames FrameFormat Framing PacketEncrypted Start ReadLoops

variable {C : Crates}

/-- The frame's packet has a known type and a payload that decodes. In encrypted mode it is
sealed with the next nonce. -/
inductive Carries (C : Crates) : Bool → Option (CipherState C.aead) → Bytes → ProtoMessage C.proto →
    Option (CipherState C.aead) → Prop where
  | plaintext (k : Option (CipherState C.aead)) (t : UInt8) (content : Bytes)
      (message : ProtoMessage C.proto) (type : message.kind.mapping.typeId = t.toNat)
      (body : C.proto.decode message.kind content = some message.body) :
      Carries C false k (t :: content) message k
  | encrypted (key : C.aead.Key) (n : ℕ) (packet : Bytes) (t₁ t₂ l₁ l₂ : UInt8) (content : Bytes)
      (message : ProtoMessage C.proto)
      (opens : C.aead.decrypt key n packet = some (t₁ :: t₂ :: l₁ :: l₂ :: content))
      (type : message.kind.mapping.typeId = t₁.toNat * 256 + t₂.toNat)
      (body : C.proto.decode message.kind content = some message.body) :
      Carries C true (some ⟨key, n⟩) packet message (some ⟨key, n + 1⟩)

theorem openFrame_ok_iff (encrypted : Bool) (k k' : Option (CipherState C.aead)) (frame : Bytes)
    (message : ProtoMessage C.proto) :
    openFrame C encrypted k frame = .ok (message, k') ↔ Carries C encrypted k frame message k' := by
  cases encrypted with
  | false =>
    constructor
    · intro h
      obtain ⟨result, hr, h⟩ := (bind_ok_iff _ _ _).mp h
      obtain ⟨m, hm, h⟩ := (bind_ok_iff _ _ _).mp h
      cases result with
      | error e => cases hm
      | ok m' =>
        cases hm
        cases h
        obtain ⟨t, content, rfl, hp⟩ := (PacketPlaintext.packetToMessage_ok_iff _ _).mp hr
        obtain ⟨ht, hb⟩ := parseProtoMessage_ok hp
        exact .plaintext k t content message ht hb
    · intro h
      cases h with
      | plaintext _ t content _ type body =>
        have hp := (PacketPlaintext.packetToMessage_ok_iff _ _).mpr
          ⟨t, content, rfl, (parseProtoMessage_ok_iff _ _ _).mpr ⟨type, body⟩⟩
        simp [openFrame, hp]
  | true =>
    constructor
    · intro h
      obtain ⟨cipher, hc, h⟩ := (bind_ok_iff _ _ _).mp h
      obtain ⟨⟨result, cipher'⟩, hr, h⟩ := (bind_ok_iff _ _ _).mp h
      obtain ⟨m, hm, h⟩ := (bind_ok_iff _ _ _).mp h
      cases k with
      | none => cases hc
      | some c =>
        obtain rfl : c = cipher := Except.ok.inj hc
        cases result with
        | error e => cases hm
        | ok m' =>
          cases hm
          cases h
          obtain ⟨t₁, t₂, l₁, l₂, content, ho, hp, rfl⟩ := (packetToMessage_ok_iff _ _ _ _).mp hr
          obtain ⟨ht, hb⟩ := parseProtoMessage_ok hp
          exact .encrypted c.key c.n frame t₁ t₂ l₁ l₂ content message ho ht hb
    · intro h
      cases h with
      | encrypted key n _ t₁ t₂ l₁ l₂ content _ opens type body =>
        have hp := (packetToMessage_ok_iff (P := C.proto) frame ⟨key, n⟩ ⟨key, n + 1⟩ message).mpr
          ⟨t₁, t₂, l₁, l₂, content, opens, (parseProtoMessage_ok_iff _ _ _).mpr ⟨type, body⟩, rfl⟩
        simp [openFrame, hp]

theorem handle_carries {s : Session} {receiverAlive : Bool} {r : ReadLoop C} {frame : Bytes}
    {message : ProtoMessage C.proto} {k : Option (CipherState C.aead)}
    (h : Carries C s.encrypted r.decryptCypher frame message k) :
    r.handle s receiverAlive frame = (r.opened frame message k).dispatched s receiverAlive message := by
  rw [ReadLoop.handle, (openFrame_ok_iff _ _ _ _ _).mpr h]

theorem handle_cases (s : Session) (receiverAlive : Bool) (r : ReadLoop C) (frame : Bytes) :
    (∃ message k, Carries C s.encrypted r.decryptCypher frame message k) ∨
      ∃ p, r.handle s receiverAlive frame = r.panic p := by
  cases ho : openFrame C s.encrypted r.decryptCypher frame with
  | error p => exact .inr ⟨p, by rw [ReadLoop.handle, ho]⟩
  | ok opened => exact .inl ⟨opened.1, opened.2, (openFrame_ok_iff _ _ _ _ _).mp ho⟩

def openFrames (C : Crates) (encrypted : Bool) (k : Option (CipherState C.aead)) :
    List Bytes → Rust (List (ProtoMessage C.proto) × Option (CipherState C.aead))
  | [] => .ok ([], k)
  | frame :: frames => do
    let (message, k) ← openFrame C encrypted k frame
    let (messages, k) ← openFrames C encrypted k frames
    .ok (message :: messages, k)

theorem openFrames_snoc {encrypted : Bool} {k k' k'' : Option (CipherState C.aead)} {frames : List Bytes}
    {messages : List (ProtoMessage C.proto)} {frame : Bytes} {message : ProtoMessage C.proto}
    (h : openFrames C encrypted k frames = .ok (messages, k'))
    (hc : Carries C encrypted k' frame message k'') :
    openFrames C encrypted k (frames ++ [frame]) = .ok (messages ++ [message], k'') := by
  induction frames generalizing k messages with
  | nil =>
    cases h
    simp [openFrames, (openFrame_ok_iff _ _ _ _ _).mpr hc]
  | cons f frames ih =>
    obtain ⟨⟨m, k₁⟩, hm, h⟩ := (bind_ok_iff _ _ _).mp h
    obtain ⟨⟨ms, k₂⟩, hms, h⟩ := (bind_ok_iff _ _ _).mp h
    cases h
    simp [openFrames, hm, ih hms]

theorem openFrames_encrypted {cipher : CipherState C.aead} {k : Option (CipherState C.aead)}
    {frames : List Bytes} {messages : List (ProtoMessage C.proto)}
    (h : openFrames C true (some cipher) frames = .ok (messages, k)) :
    ∃ cipher', k = some cipher' ∧ openAll C.proto cipher frames = .ok (messages, cipher') := by
  induction frames generalizing cipher messages with
  | nil =>
    cases h
    exact ⟨cipher, rfl, rfl⟩
  | cons frame frames ih =>
    obtain ⟨⟨m, k₁⟩, hm, h⟩ := (bind_ok_iff _ _ _).mp h
    obtain ⟨⟨ms, k₂⟩, hms, h⟩ := (bind_ok_iff _ _ _).mp h
    cases h
    cases (openFrame_ok_iff _ _ _ _ _).mp hm with
    | encrypted key n _ t₁ t₂ l₁ l₂ content _ opens type body =>
      obtain ⟨cipher', rfl, ho⟩ := ih hms
      have hp := (packetToMessage_ok_iff (P := C.proto) frame ⟨key, n⟩ ⟨key, n + 1⟩ m).mpr
        ⟨t₁, t₂, l₁, l₂, content, opens, (parseProtoMessage_ok_iff _ _ _).mpr ⟨type, body⟩, rfl⟩
      exact ⟨cipher', rfl, by simp [openAll, hp, ho]⟩

/-- The stream is the frames of the messages, read from cipher state `k` on. -/
inductive Traffic (C : Crates) (encrypted : Bool) :
    Option (CipherState C.aead) → Bytes → List (ProtoMessage C.proto) → Prop where
  | done (k : Option (CipherState C.aead)) : Traffic C encrypted k [] []
  | message {k k' : Option (CipherState C.aead)} {w frame rest : Bytes} {message : ProtoMessage C.proto}
      {messages : List (ProtoMessage C.proto)} (framed : IsFrame encrypted w frame)
      (carries : Carries C encrypted k frame message k') (next : Traffic C encrypted k' rest messages) :
      Traffic C encrypted k (w ++ rest) (message :: messages)

theorem traffic_emptyFrame {kind : MessageKind} (t : UInt8) (rest : Bytes)
    (ht : kind.mapping.typeId = t.toNat) {messages : List (ProtoMessage wireProto)}
    (h : Traffic tagCrates false none rest messages) :
    Traffic tagCrates false none ([0, 0, t] ++ rest) (⟨kind, []⟩ :: messages) := by
  have hframe : IsFrame false [0, 0, t] [t] :=
    .plaintext [0] [t] (by simp [Varint.Terminated]) (by simp) (by simp [Varint.value])
  exact .message hframe (.plaintext (C := tagCrates) none t [] ⟨kind, []⟩ ht rfl) h

section Front

variable {encrypted : Bool} {k : Option (CipherState C.aead)} {s rest : Bytes}
  {messages : List (ProtoMessage C.proto)}

theorem traffic_parse (h : Traffic C encrypted k s messages) (hne : s ≠ []) :
    ∃ frame left, parse encrypted s = .frame frame left := by
  cases h with
  | done => exact absurd rfl hne
  | message framed carries next => exact ⟨_, _, parse_isFrame framed _⟩

theorem traffic_nil (h : Traffic C encrypted k [] messages) : messages = [] := by
  generalize hs : ([] : Bytes) = stream at h
  cases h with
  | done => rfl
  | message framed carries next =>
    cases framed <;> cases hs

theorem traffic_done (h : Traffic C encrypted k s []) : s = [] := by
  cases h
  rfl

theorem traffic_frame (h : Traffic C encrypted k (s ++ rest) messages) {frame left : Bytes}
    (hp : parse encrypted s = .frame frame left) :
    ∃ message k' more, messages = message :: more ∧ Carries C encrypted k frame message k' ∧
      Traffic C encrypted k' (left ++ rest) more := by
  have hp' := (decoder encrypted).frame_append rest hp
  generalize hs : s ++ rest = stream at h hp'
  cases h with
  | done => exact nomatch (decoder encrypted).nil_incomplete.symm.trans hp'
  | message framed carries next =>
    have heq := (parse_isFrame framed _).symm.trans hp'
    cases heq
    exact ⟨_, _, _, rfl, carries, next⟩

theorem traffic_not_fail (h : Traffic C encrypted k (s ++ rest) messages) (e : IoError) :
    parse encrypted s ≠ .fail e := by
  intro hp
  have hp' := parse_fail_append rest hp
  cases hs : s ++ rest with
  | nil =>
    rw [hs] at hp'
    exact nomatch (decoder encrypted).nil_incomplete.symm.trans hp'
  | cons b bs =>
    obtain ⟨frame, left, hf⟩ := traffic_parse h (by simp [hs])
    exact nomatch hf.symm.trans hp'

theorem traffic_incomplete (h : Traffic C encrypted k s messages) (hp : parse encrypted s = .incomplete) :
    s = [] := by
  by_contra hne
  obtain ⟨frame, left, hf⟩ := traffic_parse h hne
  exact nomatch hf.symm.trans hp

end Front

end EsphomeNativeApi.ClientTraffic
