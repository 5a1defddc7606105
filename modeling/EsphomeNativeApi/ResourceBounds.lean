import EsphomeNativeApi.CrashFreedom
import EsphomeNativeApi.EndOfStream
import EsphomeNativeApi.FrameLimits
import EsphomeNativeApi.Handshake
import EsphomeNativeApi.Turns

/-!
What a client can make a connection hold and do: bytes in the buffers, messages in the
queue, and steps of the read loop.
-/

namespace EsphomeNativeApi.ResourceBounds

open RustSemantics MessageTable Frames FrameFormat FrameDecoding FrameEncoding FrameGrammar FrameLimits
open PacketEncrypted Api Start Handshake Channels Runs ReadLoops WriteLoops Connection WriteHistories Histories
open CrashFreedom EndOfStream Turns

variable {C : Crates} {encrypted : Bool} {largest : ℕ}

def longestFrame : Bool → ℕ
  | true => 3 + 65535
  | false => 5 + 128 ^ 4

theorem isFrame_le {w frame : Bytes} (h : IsFrame encrypted w frame) : w.length ≤ longestFrame encrypted := by
  cases h with
  | plaintext marker frame terminated short length =>
    have hvalue : Varint.value marker < 128 ^ 4 :=
      (Varint.value_lt marker).trans_le (Nat.pow_le_pow_right (by decide) short)
    simp only [List.length_cons, List.length_append, longestFrame]
    omega
  | encrypted hi lo frame length =>
    have := hi.toNat_lt
    have := lo.toNat_lt
    simp only [List.length_cons, longestFrame]
    omega

theorem waits_short {stream : Bytes} (h : parse encrypted stream = .incomplete) :
    stream.length < longestFrame encrypted := by
  obtain ⟨v, frame, hv, hframe⟩ := (parse_waits_iff stream).mp h
  have hle := isFrame_le hframe
  have hpos := List.length_pos_of_ne_nil hv
  rw [List.length_append] at hle
  omega

/-- The buffer holds less than a frame and a chunk, and it grew out of these chunks. -/
structure Buffered (encrypted : Bool) (largest : ℕ) (chunks : List Bytes) (src : BytesMut)
    (incoming : List Bytes) : Prop where
  short : src.data.length < longestFrame encrypted + largest
  suffix : incoming <:+ chunks
  total : src.data.length + incoming.flatten.length ≤ chunks.flatten.length

section Buffered

variable {chunks incoming : List Bytes} {src dst : BytesMut} (h : Buffered encrypted largest chunks src incoming)

include h

theorem Buffered.shrinks (hdst : dst.data.length ≤ src.data.length) :
    Buffered encrypted largest chunks dst incoming :=
  ⟨hdst.trans_lt h.short, h.suffix, (Nat.add_le_add_right hdst _).trans h.total⟩

theorem Buffered.grows {chunk : Bytes} {rest : List Bytes} (hlargest : ∀ chunk ∈ chunks, chunk.length ≤ largest)
    (hnext : incoming = chunk :: rest) (hwaits : parse encrypted src.data = .incomplete)
    (hdst : dst.data = src.data ++ chunk) : Buffered encrypted largest chunks dst rest := by
  subst hnext
  have hchunk := hlargest chunk (h.suffix.subset List.mem_cons_self)
  have hwaiting := waits_short hwaits
  have htotal := h.total
  rw [List.flatten_cons, List.length_append] at htotal
  refine ⟨?_, (List.suffix_cons chunk rest).trans h.suffix, ?_⟩
  · rw [hdst, List.length_append]
    omega
  · rw [hdst, List.length_append]
    omega

end Buffered

theorem kept_le (stream : Bytes) : ((parse encrypted stream).kept stream).length ≤ stream.length := by
  cases hp : parse encrypted stream with
  | frame frame rest =>
    obtain ⟨w, -, hsplit⟩ := isFrame_of_parse hp
    rw [hsplit, List.length_append]
    exact Nat.le_add_left _ _
  | incomplete => exact le_refl _
  | fail e => exact le_refl _

section Start

variable {chunks : List Bytes} (hlargest : ∀ chunk ∈ chunks, chunk.length ≤ largest)

include hlargest

theorem next_buffered {P : Proto} {c : FrameCodec} (hP : c.encrypted = false → P.Lawful)
    {result : Option (Except IoError Bytes)} {src dst : BytesMut} {incoming rest : List Bytes}
    (h : Buffered c.encrypted largest chunks src incoming)
    (hn : next P c src incoming = .ok (result, dst, rest)) : Buffered c.encrypted largest chunks dst rest := by
  induction incoming generalizing src with
  | nil =>
    obtain ⟨src', hd, hk⟩ := decodeEof_eq c hP src
    rw [next, hd, ok_bind] at hn
    have hshrunk : Buffered c.encrypted largest chunks src' [] := h.shrinks (by rw [hk]; exact kept_le _)
    split at hn <;>
    · simp only [Except.ok.injEq, Prod.mk.injEq] at hn
      rename_i hresult
      simp only [Prod.mk.injEq] at hresult
      obtain ⟨-, rfl, rfl⟩ := hn
      exact hresult.2 ▸ hshrunk
  | cons chunk incoming ih =>
    obtain ⟨src', hd, hk⟩ := decode_eq c hP src
    rw [next, hd, ok_bind] at hn
    cases hp : parse c.encrypted src.data with
    | incomplete =>
      rw [hp] at hn hk
      apply ih ?_ hn
      apply h.grows hlargest rfl hp
      rw [BytesMut.extendFromSlice_data, hk]
      rfl
    | frame frame left =>
      rw [hp] at hn
      cases hn
      exact h.shrinks (by rw [hk]; exact kept_le _)
    | fail e =>
      rw [hp] at hn
      cases hn
      exact h.shrinks (by rw [hk]; exact kept_le _)

theorem nextFrame_buffered {P : Proto} {c : FrameCodec} (hP : c.encrypted = false → P.Lawful)
    {frame : Bytes} {src dst : BytesMut} {incoming rest : List Bytes}
    (h : Buffered c.encrypted largest chunks src incoming)
    (hn : nextFrame P c src incoming = .ok (frame, dst, rest)) :
    Buffered c.encrypted largest chunks dst rest := by
  obtain ⟨⟨result, dst', rest'⟩, hnext, hn⟩ := (bind_ok_iff _ _ _).mp hn
  obtain ⟨result', -, hn⟩ := (bind_ok_iff _ _ _).mp hn
  obtain ⟨frame', -, hn⟩ := (bind_ok_iff _ _ _).mp hn
  cases hn
  exact next_buffered hlargest hP h hnext

end Start

theorem finishHandshake_buffers {wire : Bytes} {src : BytesMut} {incoming : List Bytes}
    {st : C.noise.HandshakeState} {outcome : StartRun C} {e : Established C}
    (h : finishHandshake C wire src incoming st = .ok outcome) (he : outcome.result = .ok e) :
    e.encrypted = true ∧ e.src = src ∧ e.incoming = incoming := by
  obtain ⟨⟨out, st'⟩, -, h⟩ := (bind_ok_iff _ _ _).mp h
  obtain ⟨out', -, h⟩ := (bind_ok_iff _ _ _).mp h
  obtain ⟨wire', -, h⟩ := (bind_ok_iff _ _ _).mp h
  cases h
  cases he
  exact ⟨rfl, rfl, rfl⟩

theorem readRequest_buffers {key : String} {wire request : Bytes} {src : BytesMut} {incoming : List Bytes}
    {outcome : StartRun C} {e : Established C}
    (h : readRequest C key wire request src incoming = .ok outcome) (he : outcome.result = .ok e) :
    e.encrypted = true ∧ e.src = src ∧ e.incoming = incoming := by
  obtain ⟨psk, -, h⟩ := (bind_ok_iff _ _ _).mp h
  obtain ⟨st, -, h⟩ := (bind_ok_iff _ _ _).mp h
  obtain ⟨payload, -, h⟩ := (bind_ok_iff _ _ _).mp h
  split at h
  · exact finishHandshake_buffers h he
  · obtain ⟨wire', -, h⟩ := (bind_ok_iff _ _ _).mp h
    cases h
    cases he
  · exact finishHandshake_buffers h he

theorem start_buffered {api : EspHomeApi} {chunks : List Bytes}
    (hlargest : ∀ chunk ∈ chunks, chunk.length ≤ largest) {outcome : StartRun C} {e : Established C}
    (h : start C api chunks = .ok outcome) (he : outcome.result = .ok e) :
    Buffered e.encrypted largest chunks e.src e.incoming := by
  have hempty : ∀ encrypted, Buffered encrypted largest chunks .empty chunks := by
    intro encrypted
    refine ⟨?_, List.suffix_refl _, by simp⟩
    cases encrypted <;> simp [longestFrame]
  unfold start at h
  split at h
  · cases h
    cases he
  · split_ifs at h with h0 hk h1
    · obtain ⟨wire, -, h⟩ := (bind_ok_iff _ _ _).mp h
      cases h
      cases he
    · cases h
      cases he
      exact hempty false
    · cases hkey : api.encryptionKey with
      | none =>
        simp only [hkey] at h
        obtain ⟨wire, -, h⟩ := (bind_ok_iff _ _ _).mp h
        cases h
        cases he
      | some key =>
        simp only [hkey] at h
        obtain ⟨⟨hello, src, rest⟩, hhello, h⟩ := (bind_ok_iff _ _ _).mp h
        obtain ⟨wire, -, h⟩ := (bind_ok_iff _ _ _).mp h
        obtain ⟨⟨request, src', rest'⟩, hrequest, h⟩ := (bind_ok_iff _ _ _).mp h
        obtain ⟨hencrypted, hsrc, hincoming⟩ := readRequest_buffers h he
        rw [hencrypted, hsrc, hincoming]
        have hfirst := nextFrame_buffered (P := C.proto) hlargest (c := .new true) new_plaintext_lawful
          (hempty true) hhello
        exact nextFrame_buffered hlargest new_plaintext_lawful hfirst hrequest
    · cases h
      cases he

section Run

variable {chunks : List Bytes} {s : Session} {e : Established C} {c d : State C} {action : Action C.proto}

theorem handle_buffers (receiverAlive : Bool) (r : ReadLoop C) (frame : Bytes) :
    (r.handle s receiverAlive frame).src = r.src ∧ (r.handle s receiverAlive frame).incoming = r.incoming := by
  unfold ReadLoop.handle
  split
  · exact ⟨rfl, rfl⟩
  · unfold ReadLoop.dispatched
    split
    · exact ⟨rfl, rfl⟩
    · exact ⟨rfl, rfl⟩
    · cases receiverAlive <;> exact ⟨rfl, rfl⟩

theorem buffered_step (hlargest : ∀ chunk ∈ chunks, chunk.length ≤ largest)
    (h : Buffered s.encrypted largest chunks c.reader.src c.reader.incoming) (ht : Transition s c action d) :
    Buffered s.encrypted largest chunks d.reader.src d.reader.incoming := by
  cases ht with
  | polled reader reading reads =>
    cases reads with
    | frame src frame parsed =>
      obtain ⟨w, -, hsplit⟩ := isFrame_of_parse parsed
      obtain ⟨hsrc, hincoming⟩ := handle_buffers (s := s) c.receiverAlive { c.reader with src := src } frame
      rw [hsrc, hincoming]
      apply h.shrinks
      rw [hsplit, List.length_append]
      exact Nat.le_add_left _ _
    | chunk src chunk chunks parsed next appended => exact h.grows hlargest next parsed appended
    | finished src empty ended kept => exact h.shrinks (congrArg List.length kept).le
    | broken src reason kept => exact h.shrinks (congrArg List.length kept).le
  | _ => exact h

def pendingBytes (w : WriteLoop C) : ℕ :=
  match w.state with
  | .writing _ pending => pending.length
  | _ => 0

theorem frameOf_length {packet : Bytes} (h : packet.length ≤ (FrameCodec.new encrypted).maxLength) :
    (frameOf encrypted packet).length ≤ (FrameCodec.new encrypted).maxLength + headerBytes encrypted := by
  cases encrypted with
  | true =>
    simp only [frameOf, ↓reduceIte, u16ToBeBytes, List.length_cons, List.length_append, headerBytes] at h ⊢
    simp only [List.length_nil]
    omega
  | false =>
    have hmarker : (Varint.encode (packet.length - 1)).length ≤ 4 := by
      apply Varint.encode_length _ 3
      have hmax : (FrameCodec.new false).maxLength < 128 ^ 4 := by decide
      omega
    simp only [frameOf, Bool.false_eq_true, ↓reduceIte, List.length_cons, List.length_append, headerBytes]
    omega

theorem seals_short {k k' : Option (CipherState C.aead)} {message : ProtoMessage C.proto} {packet : Bytes}
    (h : Seals C encrypted k message packet k') : packet.length ≤ (FrameCodec.new encrypted).maxLength := by
  cases h with
  | plaintext _ _ short => exact short
  | encrypted key n _ short => exact short

theorem pending_le {k : Option (CipherState C.aead)} {taken : List (ProtoMessage C.proto)} {w : WriteLoop C}
    (h : WriterHistory encrypted k taken w) :
    pendingBytes w ≤ (FrameCodec.new encrypted).maxLength + headerBytes encrypted := by
  unfold pendingBytes
  split
  · rename_i message pending hw
    rw [WriterHistory, hw] at h
    obtain ⟨before, packets, packet, k', done, -, -, -, hseals, -, hframe, -⟩ := h
    have hlength := frameOf_length (seals_short hseals)
    rw [hframe, List.length_append] at hlength
    exact (Nat.le_add_left _ _).trans hlength
  · exact Nat.zero_le _

def isRead {P : Proto} : Action P → Bool
  | .read => true
  | _ => false

/-- The bounds depend on the chunks that the client sends, not on what they say. -/
structure Bounded (encrypted : Bool) (largest : ℕ) (chunks : List Bytes) (actions : List (Action C.proto))
    (c : State C) : Prop where
  buffered : c.reader.src.len < longestFrame encrypted + largest
  queued : c.answers.queue.length ≤ capacity
  pending : pendingBytes c.writer ≤ (FrameCodec.new encrypted).maxLength + headerBytes encrypted
  reads : actions.countP isRead ≤ chunks.length + 2 * (chunks.flatten.length / 3) + 2

theorem resources_bounded (C : Crates) (hC : C.Lawful) (api : EspHomeApi) (chunks : List Bytes) (largest : ℕ)
    (hlargest : ∀ chunk ∈ chunks, chunk.length ≤ largest) (outcome : StartRun C) (e : Established C)
    (hstart : start C api chunks = .ok outcome) (he : outcome.result = .ok e) (streamEnds debugEnabled : Bool)
    (actions : List (Action C.proto)) (c : State C)
    (h : run (State.step ⟨api, e.encrypted, streamEnds, debugEnabled⟩) (initial e) actions = some c) :
    Bounded e.encrypted largest chunks actions c := by
  have hbuffered := start_buffered hlargest hstart he
  refine ⟨?_, queue_bounded hC.proto h, pending_le (history_run hC.proto h).writer, ?_⟩
  · have hkept : Buffered e.encrypted largest chunks c.reader.src c.reader.incoming := by
      apply run_invariant
        (fun u : State C => Buffered e.encrypted largest chunks u.reader.src u.reader.incoming) h hbuffered
      intro action _ u v hu hv
      exact buffered_step hlargest hu (step_cases hC.proto hv)
    exact hkept.short
  · have hcount := run_measure (fun c : State C => readWork c.reader) isRead h ?_
    · have hfew := hbuffered.suffix.length_le
      have htotal := hbuffered.total
      have hwork : readWork (initial e).reader =
          e.incoming.length + 2 * ((e.src.data ++ e.incoming.flatten).length / 3) + 2 := rfl
      rw [List.length_append] at hwork
      omega
    · intro action u v hv
      obtain ⟨hle, hlt⟩ := work_step (step_cases hC.proto hv)
      cases action with
      | read => exact hlt rfl
      | _ => exact hle

theorem resources_bounded_ping :
    ∃ outcome c, start tagCrates testDevice [[0], [0, 7]] = .ok outcome ∧
      outcome.result = .ok (plaintextStart [[0], [0, 7]]) ∧
      run (State.step ⟨testDevice, false, true, false⟩) (initial (plaintextStart [[0], [0, 7]]))
        [.read, .read, .read, .read, .read] = some c ∧
      Bounded false 2 [[0], [0, 7]] [.read, .read, .read, .read, .read] c := by
  obtain ⟨c, hrun⟩ : ∃ c, run (State.step ⟨testDevice, false, true, false⟩)
      (initial (plaintextStart [[0], [0, 7]])) [.read, .read, .read, .read, .read] = some c :=
    Option.isSome_iff_exists.mp (by decide +kernel)
  refine ⟨_, c, rfl, rfl, hrun, ?_⟩
  exact resources_bounded tagCrates tagCrates_lawful testDevice [[0], [0, 7]] 2 (by decide) _ _ rfl rfl
    true false _ c hrun

end Run

end EsphomeNativeApi.ResourceBounds
