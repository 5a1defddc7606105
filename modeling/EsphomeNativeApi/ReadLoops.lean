import EsphomeNativeApi.Channels
import EsphomeNativeApi.FrameDecoding
import EsphomeNativeApi.Start

/-!
The read loop of a connection, one step for each thing it awaits.
-/

namespace EsphomeNativeApi.ReadLoops

open RustSemantics MessageTable Frames FrameFormat FrameDecoding Framing
open PacketEncrypted Api Start Channels

/-- What the loops of a connection are started with, whether the client ends its stream,
and whether `debug!` evaluates its arguments. -/
structure Session where
  api : EspHomeApi
  encrypted : Bool
  streamEnds : Bool
  debugEnabled : Bool

inductive ReadState (P : Proto) where
  | reading
  | answering (response : ProtoMessage P)
  | stopping
  | stopped
  | panicked (p : Panic)

/-- The read loop with the sending ends of the cancellation and of the outgoing messages.
`incoming` is what the client has still to send. -/
structure ReadLoop (C : Crates) where
  state : ReadState C.proto
  src : BytesMut
  incoming : List Bytes
  decryptCypher : Option (CipherState C.aead)
  cancellation : Oneshot String
  outgoing : Broadcast (ProtoMessage C.proto)
  handled : List (Bytes × ProtoMessage C.proto)

variable {C : Crates}

def openFrame (C : Crates) (encrypted : Bool) (decryptCypher : Option (CipherState C.aead))
    (frame : Bytes) : Rust (ProtoMessage C.proto × Option (CipherState C.aead)) :=
  if encrypted then do
    let cipherDecrypt ← unwrapOption decryptCypher
    let (message, cipherDecrypt) ← PacketEncrypted.packetToMessage C.proto frame cipherDecrypt
    let message ← unwrap message
    .ok (message, some cipherDecrypt)
  else do
    let message ← unwrap (← PacketPlaintext.packetToMessage C.proto frame)
    .ok (message, decryptCypher)

namespace ReadLoop

def new (src : BytesMut) (incoming : List Bytes) (decryptCypher : Option (CipherState C.aead)) :
    ReadLoop C :=
  ⟨.reading, src, incoming, decryptCypher, .waiting, .empty, []⟩

def panic (r : ReadLoop C) (p : Panic) : ReadLoop C :=
  { r with state := .panicked p, cancellation := r.cancellation.dropSender }

def opened (r : ReadLoop C) (frame : Bytes) (message : ProtoMessage C.proto)
    (decryptCypher : Option (CipherState C.aead)) : ReadLoop C :=
  { r with decryptCypher := decryptCypher, handled := r.handled ++ [(frame, message)] }

def broadcast (receiverAlive : Bool) (r : ReadLoop C) (message : ProtoMessage C.proto) : ReadLoop C :=
  -- `broadcast::Sender::send` fails when no receiver is left
  if receiverAlive then { r with outgoing := r.outgoing.send message } else r.panic .unwrapErr

def dispatched (s : Session) (receiverAlive : Bool) (r : ReadLoop C) (message : ProtoMessage C.proto) :
    ReadLoop C :=
  match s.api.dispatch message with
  | .answer response => { r with state := .answering response }
  | .ignore => r
  | .forward message => r.broadcast receiverAlive message

theorem dispatched_panics {s : Session} {r : ReadLoop C} {receiverAlive : Bool} {message forwarded : ProtoMessage C.proto}
    (hd : s.api.dispatch message = .forward forwarded) (hdead : receiverAlive = false) :
    r.dispatched s receiverAlive message = r.panic .unwrapErr := by
  subst hdead
  rw [dispatched, hd]
  rfl

theorem dispatched_fields {s : Session} (receiverAlive : Bool) (r : ReadLoop C)
    (message : ProtoMessage C.proto)
    (h : receiverAlive = false → ∀ forwarded, s.api.dispatch message ≠ .forward forwarded) :
    let t := r.dispatched s receiverAlive message
    t.src = r.src ∧ t.incoming = r.incoming ∧ t.decryptCypher = r.decryptCypher ∧
      t.handled = r.handled ∧ t.cancellation = r.cancellation ∧
      (t.state = r.state ∨ ∃ response, s.api.dispatch message = .answer response ∧
        t.state = .answering response) := by
  unfold dispatched
  cases hd : s.api.dispatch message with
  | answer response => exact ⟨rfl, rfl, rfl, rfl, rfl, .inr ⟨response, rfl, rfl⟩⟩
  | ignore => exact ⟨rfl, rfl, rfl, rfl, rfl, .inl rfl⟩
  | forward m =>
    cases receiverAlive with
    | true => exact ⟨rfl, rfl, rfl, rfl, rfl, .inl rfl⟩
    | false => exact absurd hd (h rfl m)

def handle (s : Session) (receiverAlive : Bool) (r : ReadLoop C) (frame : Bytes) : ReadLoop C :=
  match openFrame C s.encrypted r.decryptCypher frame with
  | .error p => r.panic p
  | .ok (message, decryptCypher) => (r.opened frame message decryptCypher).dispatched s receiverAlive message

def finish (r : ReadLoop C) : ReadLoop C :=
  { r with state := .stopping, cancellation := .sent "read loop finished" }

def readEof (s : Session) (receiverAlive : Bool) (r : ReadLoop C) : ReadLoop C :=
  match (FrameCodec.new s.encrypted).decodeEof C.proto r.src with
  | .error p => r.panic p
  | .ok (.error _, src) => { r with src := src }.panic .unwrapErr
  | .ok (.ok (some frame), src) => { r with src := src }.handle s receiverAlive frame
  | .ok (.ok none, src) => { r with src := src }.finish

def read (s : Session) (receiverAlive : Bool) (r : ReadLoop C) : Option (ReadLoop C) :=
  match (FrameCodec.new s.encrypted).decode C.proto r.src with
  | .error p => some (r.panic p)
  | .ok (.error _, src) => some ({ r with src := src }.panic .unwrapErr)
  | .ok (.ok (some frame), src) => some ({ r with src := src }.handle s receiverAlive frame)
  | .ok (.ok none, src) =>
    match r.incoming with
    | chunk :: chunks => some { r with src := src.extendFromSlice C.proto.growth chunk, incoming := chunks }
    | [] => if s.streamEnds then some ({ r with src := src }.readEof s receiverAlive) else none

def unread (r : ReadLoop C) : Bytes := r.src.data ++ r.incoming.flatten

theorem unread_chunk {r : ReadLoop C} {src : BytesMut} {chunk : Bytes} {chunks : List Bytes}
    (next : r.incoming = chunk :: chunks) (appended : src.data = r.src.data ++ chunk) :
    ({ r with src := src, incoming := chunks } : ReadLoop C).unread = r.unread := by
  rw [unread, unread, next, appended, List.flatten_cons, List.append_assoc]

theorem unread_finish {r : ReadLoop C} {src : BytesMut} (kept : src.data = r.src.data) :
    ({ r with src := src } : ReadLoop C).finish.unread = r.unread := by
  rw [unread, finish, kept, unread]

theorem dispatched_unanswered {s : Session} (receiverAlive : Bool) (r : ReadLoop C)
    (message : ProtoMessage C.proto)
    (hdead : receiverAlive = false → ∀ forwarded, s.api.dispatch message ≠ .forward forwarded)
    (hanswer : ∀ response, s.api.dispatch message ≠ .answer response) :
    let t := r.dispatched s receiverAlive message
    t.state = r.state ∧ t.cancellation = r.cancellation ∧ t.decryptCypher = r.decryptCypher ∧
      t.unread = r.unread ∧ t.handled = r.handled := by
  intro t
  obtain ⟨hsrc, hincoming, hk, hhandled, hcancel, hstate⟩ := dispatched_fields receiverAlive r message hdead
  have hstays : t.state = r.state := by
    rcases hstate with hstate | ⟨response, hresponse, -⟩
    · exact hstate
    · exact absurd hresponse (hanswer response)
  have hunread : t.unread = r.unread := by rw [unread, unread, hsrc, hincoming]
  exact ⟨hstays, hcancel, hk, hunread, hhandled⟩

section Reads

variable {s : Session} (receiverAlive : Bool) {r r' : ReadLoop C}

theorem read_frame (hP : C.proto.Lawful) {frame rest : Bytes}
    (h : parse s.encrypted r.src.data = .frame frame rest) :
    ∃ src : BytesMut, src.data = rest ∧
      r.read s receiverAlive = some ({ r with src := src }.handle s receiverAlive frame) := by
  obtain ⟨src, hd, hk⟩ := decode_eq (.new s.encrypted) (fun _ => hP) r.src
  simp only [FrameCodec.new, h] at hk
  refine ⟨src, hk, ?_⟩
  rw [read, hd]
  simp only [FrameCodec.new, h, Verdict.result]

theorem read_chunk (hP : C.proto.Lawful) {chunk : Bytes} {chunks : List Bytes}
    (h : parse s.encrypted r.src.data = .incomplete) (hi : r.incoming = chunk :: chunks) :
    ∃ src : BytesMut, src.data = r.src.data ++ chunk ∧
      r.read s receiverAlive = some { r with src := src, incoming := chunks } := by
  obtain ⟨src, hd, hk⟩ := decode_eq (.new s.encrypted) (fun _ => hP) r.src
  simp only [FrameCodec.new, h] at hk
  refine ⟨src.extendFromSlice C.proto.growth chunk, by rw [BytesMut.extendFromSlice_data, hk]; rfl, ?_⟩
  rw [read, hd]
  simp only [FrameCodec.new, h, Verdict.result, hi]

theorem read_fail (hP : C.proto.Lawful) {e : IoError} (h : parse s.encrypted r.src.data = .fail e) :
    ∃ src : BytesMut, src.data = r.src.data ∧
      r.read s receiverAlive = some ({ r with src := src }.panic .unwrapErr) := by
  obtain ⟨src, hd, hk⟩ := decode_eq (.new s.encrypted) (fun _ => hP) r.src
  simp only [FrameCodec.new, h] at hk
  refine ⟨src, hk, ?_⟩
  rw [read, hd]
  simp only [FrameCodec.new, h, Verdict.result]

theorem read_end (hP : C.proto.Lawful) (h : parse s.encrypted r.src.data = .incomplete)
    (hi : r.incoming = []) (hs : s.streamEnds = true) :
    ∃ src : BytesMut, src.data = r.src.data ∧ r.read s receiverAlive =
      some (if r.src.data = [] then { r with src := src }.finish
        else { r with src := src }.panic .unwrapErr) := by
  obtain ⟨src, hd, hk⟩ := decode_eq (.new s.encrypted) (fun _ => hP) r.src
  simp only [FrameCodec.new, h] at hk
  have hk : src.data = r.src.data := hk
  obtain ⟨src', hd', hk'⟩ := decodeEof_eq (.new s.encrypted) (fun _ => hP) src
  simp only [FrameCodec.new, hk, h] at hk' hd'
  refine ⟨src', hk', ?_⟩
  rw [read, hd]
  simp only [FrameCodec.new, h, Verdict.result, hi, hs, ↓reduceIte, readEof, hd']
  by_cases he : r.src.data = [] <;> simp only [he, ↓reduceIte]

theorem read_pending (hP : C.proto.Lawful) (h : parse s.encrypted r.src.data = .incomplete)
    (hi : r.incoming = []) (hs : s.streamEnds = false) : r.read s receiverAlive = none := by
  obtain ⟨src, hd, -⟩ := decode_eq (.new s.encrypted) (fun _ => hP) r.src
  rw [read, hd]
  simp only [FrameCodec.new, h, Verdict.result, hi, hs, Bool.false_eq_true, ↓reduceIte]

theorem read_isSome (hP : C.proto.Lawful) (hs : s.streamEnds = true) :
    ∃ t, r.read s receiverAlive = some t := by
  cases hp : parse s.encrypted r.src.data with
  | frame frame rest => exact ⟨_, (read_frame receiverAlive hP hp).choose_spec.2⟩
  | fail e => exact ⟨_, (read_fail receiverAlive hP hp).choose_spec.2⟩
  | incomplete =>
    cases hi : r.incoming with
    | cons chunk chunks => exact ⟨_, (read_chunk receiverAlive hP hp hi).choose_spec.2⟩
    | nil => exact ⟨_, (read_end receiverAlive hP hp hi hs).choose_spec.2⟩

end Reads

/-- No frame can be read from the bytes that are there, nor from any that follow. -/
def Broken (s : Session) (r : ReadLoop C) : Prop :=
  (∃ e, parse s.encrypted r.src.data = .fail e) ∨
    parse s.encrypted r.src.data = .incomplete ∧ r.incoming = [] ∧ s.streamEnds = true ∧ r.src.data ≠ []

inductive Reads (s : Session) (receiverAlive : Bool) (r : ReadLoop C) : ReadLoop C → Prop where
  | frame (src : BytesMut) (frame : Bytes)
      (parsed : parse s.encrypted r.src.data = .frame frame src.data) :
      Reads s receiverAlive r ({ r with src := src }.handle s receiverAlive frame)
  | chunk (src : BytesMut) (chunk : Bytes) (chunks : List Bytes)
      (parsed : parse s.encrypted r.src.data = .incomplete) (next : r.incoming = chunk :: chunks)
      (appended : src.data = r.src.data ++ chunk) :
      Reads s receiverAlive r { r with src := src, incoming := chunks }
  | finished (src : BytesMut) (empty : r.unread = []) (ended : s.streamEnds = true)
      (kept : src.data = r.src.data) : Reads s receiverAlive r { r with src := src }.finish
  | broken (src : BytesMut) (reason : Broken s r) (kept : src.data = r.src.data) :
      Reads s receiverAlive r ({ r with src := src }.panic .unwrapErr)

theorem read_cases (hP : C.proto.Lawful) {s : Session} {receiverAlive : Bool} {r r' : ReadLoop C}
    (h : r.read s receiverAlive = some r') : Reads s receiverAlive r r' := by
  cases hp : parse s.encrypted r.src.data with
  | frame frame rest =>
    obtain ⟨src, rfl, he⟩ := read_frame receiverAlive hP hp
    rw [he] at h
    cases h
    exact .frame src frame hp
  | fail e =>
    obtain ⟨src, hk, he⟩ := read_fail receiverAlive hP hp
    rw [he] at h
    cases h
    exact .broken src (.inl ⟨e, hp⟩) hk
  | incomplete =>
    cases hi : r.incoming with
    | cons chunk chunks =>
      obtain ⟨src, hk, he⟩ := read_chunk receiverAlive hP hp hi
      rw [he] at h
      cases h
      exact .chunk src chunk chunks hp hi hk
    | nil =>
      cases hs : s.streamEnds with
      | false => simp [read_pending receiverAlive hP hp hi hs] at h
      | true =>
        obtain ⟨src, hk, he⟩ := read_end receiverAlive hP hp hi hs
        rw [he] at h
        cases h
        split_ifs with hd
        · exact .finished src (by rw [unread, hd, hi]; rfl) hs hk
        · exact .broken src (.inr ⟨hp, hi, hs, hd⟩) hk

end ReadLoop

end EsphomeNativeApi.ReadLoops
