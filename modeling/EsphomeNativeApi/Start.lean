import EsphomeNativeApi.EspHomeApi

/-!
`EspHomeApi::start` up to the point where it spawns its two loops.
-/

namespace EsphomeNativeApi.Start

open RustSemantics MessageTable Frames PacketEncrypted Api

inductive NoiseError where
  | dh
  | needPsk
  | decryption
  | tooShort
  deriving DecidableEq, Repr

structure Noise (A : Aead) where
  HandshakeState : Type
  new : HandshakeState
  overhead : ℕ
  isWriteTurn : HandshakeState → Bool
  pushPsk : HandshakeState → Bytes → Rust HandshakeState
  readMessageVec : HandshakeState → Bytes → Except NoiseError Bytes × HandshakeState
  writeMessageVec : HandshakeState → Bytes → Rust (Except NoiseError Bytes × HandshakeState)
  getCiphers : HandshakeState → CipherState A × CipherState A

/-- The first message is the initiator's, and its payload is at least `overhead` long.
Reading it fails with `Decryption`, or else with `TooShort` before anything has changed. -/
structure Noise.Lawful {A : Aead} (N : Noise A) : Prop where
  push_psk : ∀ psk, (∃ st, N.pushPsk N.new psk = .ok st) ↔ psk.length = 32
  first_turn : ∀ psk st, N.pushPsk N.new psk = .ok st → N.isWriteTurn st = false
  read_short : ∀ st payload, payload.length < N.overhead →
    N.readMessageVec st payload = (.error .tooShort, st)
  read_error : ∀ psk st payload e st', N.pushPsk N.new psk = .ok st →
    N.readMessageVec st payload = (.error e, st') → e ≠ .decryption → payload.length < N.overhead
  write_turn : ∀ st payload out st', N.writeMessageVec st payload = .ok (.ok out, st') →
    N.isWriteTurn st = true
  write_length : ∀ st out st', N.writeMessageVec st [] = .ok (.ok out, st') → out.length ≤ 65535

structure Crates where
  proto : Proto
  aead : Aead
  noise : Noise aead
  base64Decode : String → Option Bytes

structure Crates.Lawful (C : Crates) : Prop where
  proto : C.proto.Lawful
  aead : C.aead.Lawful
  noise : C.noise.Lawful

/-- `FramedRead::next` on a stream that delivers the chunks and then ends. A chunk of no
bytes is no read, for a read of no bytes is the end of the stream. -/
def next (P : Proto) (c : FrameCodec) :
    BytesMut → List Bytes → Rust (Option (Except IoError Bytes) × BytesMut × List Bytes)
  | src, [] => do
    match ← c.decodeEof P src with
    | (.error e, src) => .ok (some (.error e), src, [])
    | (.ok (some frame), src) => .ok (some (.ok frame), src, [])
    | (.ok none, src) => .ok (none, src, [])
  | src, chunk :: chunks => do
    match ← c.decode P src with
    | (.error e, src) => .ok (some (.error e), src, chunk :: chunks)
    | (.ok (some frame), src) => .ok (some (.ok frame), src, chunk :: chunks)
    | (.ok none, src) => next P c (src.extendFromSlice P.growth chunk) chunks

def nextFrame (P : Proto) (c : FrameCodec) (src : BytesMut) (chunks : List Bytes) :
    Rust (Bytes × BytesMut × List Bytes) := do
  let (frame, src, chunks) ← next P c src chunks
  let frame ← unwrap (← unwrapOption frame)
  .ok (frame, src, chunks)

/-- `FramedWrite::send(item).await.unwrap()` on a socket whose writes do not fail. -/
def send (P : Proto) (c : FrameCodec) (wire item : Bytes) : Rust Bytes := do
  let (result, dst) ← c.encode P item .empty
  let _ ← unwrap result
  .ok (wire ++ dst.data)

structure Established (C : Crates) where
  encrypted : Bool
  src : BytesMut
  incoming : List Bytes
  encryptCypher : Option (CipherState C.aead)
  decryptCypher : Option (CipherState C.aead)

structure StartRun (C : Crates) where
  wire : Bytes
  shutdown : Bool
  result : Except String (Established C)

def errorOnlyEncrypted : String := "Only key encryption is enabled"

def errorHandshakeMacFailure : String := "Handshake MAC failure"

def noEncryptionAllowed : String := "No encrypted communication allowed"

def noEncryptionKey : String :=
  "No encryption key set, but encrypted communication requested."

def errorPacket (message : String) : Bytes := [1] ++ asBytes message

variable (C : Crates)

def writeErrorAndDisconnect (c : FrameCodec) (wire : Bytes) (message error : String) :
    Rust (StartRun C) := do
  let wire ← send C.proto c wire (errorPacket message)
  .ok ⟨wire, true, .error error⟩

def finishHandshake (wire : Bytes) (src : BytesMut) (incoming : List Bytes)
    (handshakeState : C.noise.HandshakeState) : Rust (StartRun C) := do
  let (out, handshakeState) ← C.noise.writeMessageVec handshakeState []
  let out ← unwrap out
  let (decryptCipher, encryptCipher) := C.noise.getCiphers handshakeState
  let wire ← send C.proto (.new true) wire ([0] ++ out)
  .ok ⟨wire, false, .ok ⟨true, src, incoming, some encryptCipher, some decryptCipher⟩⟩

def readRequest (encryptionKey : String) (wire frameHandshakeRequest : Bytes) (src : BytesMut)
    (incoming : List Bytes) : Rust (StartRun C) := do
  let noisePsk ← unwrapOption (C.base64Decode encryptionKey)
  let handshakeState ← C.noise.pushPsk C.noise.new noisePsk
  -- the first byte of the request is its message type
  let payload ← sliceFrom frameHandshakeRequest 1
  match C.noise.readMessageVec handshakeState payload with
  | (.ok _, handshakeState) => finishHandshake C wire src incoming handshakeState
  | (.error .decryption, _) =>
    writeErrorAndDisconnect C (.new true) wire errorHandshakeMacFailure errorHandshakeMacFailure
  -- any other error is only logged
  | (.error _, handshakeState) => finishHandshake C wire src incoming handshakeState

def handshake (api : EspHomeApi) (encryptionKey : String) (chunks : List Bytes) : Rust (StartRun C) := do
  let (_, src, chunks) ← nextFrame C.proto (.new true) .empty chunks
  let wire ← send C.proto (.new true) [] (generateServerHelloFrame api.name api.mac)
  let (frameHandshakeRequest, src, chunks) ← nextFrame C.proto (.new true) src chunks
  readRequest C encryptionKey wire frameHandshakeRequest src chunks

def fillBuf (chunks : List Bytes) : Bytes :=
  -- a chunk of no bytes is no read, and no bytes at all are the end of the stream
  (chunks.find? (fun chunk => !chunk.isEmpty)).getD []

def start (api : EspHomeApi) (chunks : List Bytes) : Rust (StartRun C) :=
  match fillBuf chunks with
  | [] => .ok ⟨[], false, .error "No data"⟩
  | preamble :: _ =>
    if preamble = 0 then
      if api.encryptionKey.isSome then
        writeErrorAndDisconnect C (.new true) [] errorOnlyEncrypted errorOnlyEncrypted
      else .ok ⟨[], false, .ok ⟨false, .empty, chunks, none, none⟩⟩
    else if preamble = 1 then
      match api.encryptionKey with
      | none => writeErrorAndDisconnect C (.new true) [] noEncryptionAllowed noEncryptionKey
      | some encryptionKey => handshake C api encryptionKey chunks
    else .ok ⟨[], false, .error ("Invalid marker byte " ++ toString preamble.toNat)⟩

theorem fillBuf_head (chunks : List Bytes) : (fillBuf chunks).head? = chunks.flatten.head? := by
  induction chunks with
  | nil => rfl
  | cons chunk chunks ih =>
    cases chunk with
    | nil => simpa [fillBuf] using ih
    | cons b bs => simp [fillBuf]

/-- A lawful handshake that checks only the last byte of the request. Its state says
whether the request was read. -/
def tagNoise : Noise tagAead where
  HandshakeState := Bool
  new := false
  overhead := 48
  isWriteTurn st := st
  pushPsk st psk := if psk.length = 32 then .ok st else .error .assertion
  readMessageVec st payload :=
    if payload.length < 48 then (.error .tooShort, st)
    else if payload.getLast? = some 0 then (.ok [], true)
    else (.error .decryption, st)
  writeMessageVec st _ :=
    if st then .ok (.ok (List.replicate 48 0), false) else .error .assertion
  getCiphers _ := (⟨(), 0⟩, ⟨(), 0⟩)

theorem tagNoise_lawful : tagNoise.Lawful where
  push_psk psk := by
    simp only [tagNoise]
    split_ifs with h <;> simp [h]
  first_turn psk st h := by
    simp only [tagNoise] at h ⊢
    split_ifs at h
    cases h
    rfl
  read_short st payload h := if_pos h
  read_error psk st payload e st' _ h he := by
    simp only [tagNoise] at h
    split_ifs at h with hs hz
    · exact hs
    · cases h
    · cases h
      exact absurd rfl he
  write_turn st payload out st' h := by
    simp only [tagNoise] at h
    split_ifs at h with hs
    exact hs
  write_length st out st' h := by
    simp only [tagNoise] at h
    split_ifs at h
    cases h
    simp

def zeroKey : String := "AAAAAAAAAAAAAAAAAAAAAAAAAAAAAAAAAAAAAAAAAAA="

def tagCrates : Crates where
  proto := wireProto
  aead := tagAead
  noise := tagNoise
  base64Decode key := if key = zeroKey then some (List.replicate 32 0) else none

theorem tagCrates_lawful : tagCrates.Lawful := ⟨wireProto_lawful, tagAead_lawful, tagNoise_lawful⟩

end EsphomeNativeApi.Start
