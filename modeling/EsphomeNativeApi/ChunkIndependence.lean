import EsphomeNativeApi.Handshake
import EsphomeNativeApi.StreamMessages

/-!
How the client's bytes are cut decides nothing: neither how `start` comes out, nor which
messages the loops that it starts handle.
-/

namespace EsphomeNativeApi.ChunkIndependence

open RustSemantics MessageTable Frames FrameFormat FrameDecoding FrameEncoding Framing PacketEncrypted Api
open Start Handshake Channels Runs ReadLoops ClientTraffic Connection ReadHistories Histories StreamMessages

variable {C : Crates}

def unreadAt (e : Established C) : Bytes := e.src.data ++ e.incoming.flatten

structure SameStart (e e' : Established C) : Prop where
  encrypted : e.encrypted = e'.encrypted
  unread : unreadAt e = unreadAt e'
  encryptCypher : e.encryptCypher = e'.encryptCypher
  decryptCypher : e.decryptCypher = e'.decryptCypher

/-- The same panic or the same run, up to where the bytes that are left are cut. -/
inductive SameOutcome : Rust (StartRun C) → Rust (StartRun C) → Prop where
  | panicked (p : Panic) : SameOutcome (.error p) (.error p)
  | failed (wire : Bytes) (shutdown : Bool) (error : String) :
      SameOutcome (.ok ⟨wire, shutdown, .error error⟩) (.ok ⟨wire, shutdown, .error error⟩)
  | established (wire : Bytes) (shutdown : Bool) (e e' : Established C) (same : SameStart e e') :
      SameOutcome (.ok ⟨wire, shutdown, .ok e⟩) (.ok ⟨wire, shutdown, .ok e'⟩)

section Frames

variable {P : Proto} {c : FrameCodec} (hP : c.encrypted = false → P.Lawful)

include hP

theorem next_fails (src : BytesMut) (chunks : List Bytes)
    (h : ∀ data rest, parse c.encrypted (src.data ++ chunks.flatten) ≠ .frame data rest) :
    ∃ failure src' chunks', next P c src chunks = .ok (failure, src', chunks') ∧
      if src.data ++ chunks.flatten = [] then failure = none else ∃ e, failure = some (.error e) := by
  induction chunks generalizing src with
  | nil =>
    obtain ⟨dst, hd, -⟩ := decodeEof_eq c hP src
    rw [List.flatten_nil, List.append_nil] at h ⊢
    rw [next, hd, ok_bind]
    cases hp : parse c.encrypted src.data with
    | frame data rest => exact absurd hp (h data rest)
    | fail e =>
      have hne : src.data ≠ [] := by
        intro he
        rw [he] at hp
        cases hp.symm.trans (decoder c.encrypted).nil_incomplete
      exact ⟨some (.error e), dst, [], rfl, by rw [if_neg hne]; exact ⟨e, rfl⟩⟩
    | incomplete =>
      by_cases he : src.data = []
      · exact ⟨none, dst, [], by rw [if_pos he], by rw [if_pos he]⟩
      · exact ⟨some (.error bytesRemaining), dst, [], by rw [if_neg he], by rw [if_neg he]; exact ⟨_, rfl⟩⟩
  | cons chunk chunks ih =>
    obtain ⟨dst, hd, hk⟩ := decode_eq c hP src
    rw [next, hd, ok_bind]
    cases hp : parse c.encrypted src.data with
    | frame data rest => exact absurd ((decoder c.encrypted).frame_append _ hp) (h data _)
    | fail e =>
      have hne : src.data ++ (chunk :: chunks).flatten ≠ [] := by
        intro he
        rw [(List.append_eq_nil_iff.mp he).1] at hp
        cases hp.symm.trans (decoder c.encrypted).nil_incomplete
      exact ⟨some (.error e), dst, _, rfl, by rw [if_neg hne]; exact ⟨e, rfl⟩⟩
    | incomplete =>
      rw [hp] at hk
      have hdata : (dst.extendFromSlice P.growth chunk).data ++ chunks.flatten =
          src.data ++ (chunk :: chunks).flatten := by
        rw [BytesMut.extendFromSlice_data, List.flatten_cons, List.append_assoc]
        exact congrArg (· ++ _) hk
      have hrest := ih (dst.extendFromSlice P.growth chunk) (by rw [hdata]; exact h)
      rw [hdata] at hrest
      exact hrest

theorem nextFrame_fails (src : BytesMut) (chunks : List Bytes)
    (h : ∀ data rest, parse c.encrypted (src.data ++ chunks.flatten) ≠ .frame data rest) :
    nextFrame P c src chunks =
      .error (if src.data ++ chunks.flatten = [] then .unwrapNone else .unwrapErr) := by
  obtain ⟨failure, src', chunks', hn, hf⟩ := next_fails hP src chunks h
  rw [nextFrame, hn]
  split_ifs at hf ⊢ with he
  · rw [hf]
    rfl
  · obtain ⟨e, rfl⟩ := hf
    rfl

theorem nextFrame_same {src src' : BytesMut} {chunks chunks' : List Bytes}
    (h : src.data ++ chunks.flatten = src'.data ++ chunks'.flatten) :
    (∃ p, nextFrame P c src chunks = .error p ∧ nextFrame P c src' chunks' = .error p) ∨
      ∃ data left left' more more', nextFrame P c src chunks = .ok (data, left, more) ∧
        nextFrame P c src' chunks' = .ok (data, left', more') ∧
        left.data ++ more.flatten = left'.data ++ more'.flatten := by
  by_cases hframe : ∃ data rest, parse c.encrypted (src.data ++ chunks.flatten) = .frame data rest
  · obtain ⟨data, rest, hp⟩ := hframe
    obtain ⟨left, more, hn, hl⟩ := nextFrame_frame hP src chunks hp
    obtain ⟨left', more', hn', hl'⟩ := nextFrame_frame hP src' chunks' (h ▸ hp)
    exact .inr ⟨data, left, left', more, more', hn, hn', hl.trans hl'.symm⟩
  · simp only [not_exists] at hframe
    refine .inl ⟨_, nextFrame_fails hP src chunks hframe, ?_⟩
    rw [h]
    exact nextFrame_fails hP src' chunks' (h ▸ hframe)

end Frames

section Start

variable {src src' : BytesMut} {incoming incoming' : List Bytes}
  (h : src.data ++ incoming.flatten = src'.data ++ incoming'.flatten)

include h

theorem finishHandshake_same (wire : Bytes) (st : C.noise.HandshakeState) :
    SameOutcome (finishHandshake C wire src incoming st) (finishHandshake C wire src' incoming' st) := by
  unfold finishHandshake
  cases C.noise.writeMessageVec st [] with
  | error p => exact .panicked p
  | ok written =>
    obtain ⟨out, st'⟩ := written
    cases out with
    | error e => exact .panicked _
    | ok out =>
      simp only [ok_bind, unwrap_ok]
      cases send C.proto (.new true) wire ([0] ++ out) with
      | error p => exact .panicked p
      | ok wire => exact .established _ _ _ _ ⟨rfl, h, rfl, rfl⟩

theorem readRequest_same (key : String) (wire request : Bytes) :
    SameOutcome (readRequest C key wire request src incoming)
      (readRequest C key wire request src' incoming') := by
  unfold readRequest
  cases unwrapOption (C.base64Decode key) with
  | error p => exact .panicked p
  | ok psk =>
    simp only [ok_bind]
    cases C.noise.pushPsk C.noise.new psk with
    | error p => exact .panicked p
    | ok st =>
      simp only [ok_bind]
      cases sliceFrom request 1 with
      | error p => exact .panicked p
      | ok payload =>
        simp only [ok_bind]
        rcases C.noise.readMessageVec st payload with ⟨⟨e⟩ | payload, st'⟩
        · cases e with
          | decryption =>
            simp only [writeErrorAndDisconnect]
            cases send C.proto (.new true) wire (errorPacket errorHandshakeMacFailure) with
            | error p => exact .panicked p
            | ok wire => exact .failed _ _ _
          | _ => exact finishHandshake_same h wire st'
        · exact finishHandshake_same h wire st'

end Start

theorem handshake_same (api : EspHomeApi) (key : String) {chunks chunks' : List Bytes}
    (h : chunks.flatten = chunks'.flatten) :
    SameOutcome (handshake C api key chunks) (handshake C api key chunks') := by
  have hP := new_plaintext_lawful (P := C.proto)
  unfold handshake
  have hsame : (BytesMut.empty).data ++ chunks.flatten = (BytesMut.empty).data ++ chunks'.flatten := h
  rcases nextFrame_same hP hsame with
    ⟨p, hn, hn'⟩ | ⟨hello, left, left', more, more', hn, hn', hrest⟩
  · rw [hn, hn']
    exact .panicked p
  · rw [hn, hn']
    simp only [ok_bind]
    cases send C.proto (.new true) [] (generateServerHelloFrame api.name api.mac) with
    | error p => exact .panicked p
    | ok wire =>
      simp only [ok_bind]
      rcases nextFrame_same hP hrest with ⟨p, hr, hr'⟩ | ⟨request, src, src', rest, rest', hr, hr', hleft⟩
      · rw [hr, hr']
        exact .panicked p
      · rw [hr, hr']
        exact readRequest_same hleft key wire request

theorem start_same (C : Crates) (api : EspHomeApi) (chunks chunks' : List Bytes)
    (h : chunks.flatten = chunks'.flatten) : SameOutcome (start C api chunks) (start C api chunks') := by
  cases hs : chunks.flatten with
  | nil =>
    rw [start_empty hs, start_empty (h ▸ hs)]
    exact .failed _ _ _
  | cons preamble stream =>
    have hhead : chunks.flatten.head? = some preamble := by
      rw [hs]
      rfl
    rw [start_of_head hhead, start_of_head (h ▸ hhead)]
    split_ifs with h0 hk h1
    · exact .failed _ _ _
    · exact .established _ _ _ _ ⟨rfl, by simpa [unreadAt] using h, rfl, rfl⟩
    · cases api.encryptionKey with
      | none => exact .failed _ _ _
      | some key => exact handshake_same api key h
    · exact .failed _ _ _

def plainApi : EspHomeApi := { name := "test-device" }

theorem start_same_bytewise :
    SameOutcome (start tagCrates plainApi [[0, 0, 7], [0, 0, 7]]) (start tagCrates plainApi [[0], [0, 7, 0, 0], [7]]) :=
  start_same tagCrates plainApi [[0, 0, 7], [0, 0, 7]] [[0], [0, 7, 0, 0], [7]] rfl

def Comparable {α : Type} (l m : List α) : Prop := l <+: m ∨ m <+: l

structure Ahead (c d : State C) : Prop where
  messages : messages d.reader <+: messages c.reader
  answers : acceptedFrom d .readLoop <+: acceptedFrom c .readLoop
  broadcasts : d.reader.outgoing.sent <+: c.reader.outgoing.sent

def Finished (r : ReadLoop C) : Prop := r.state = .stopping ∨ r.state = .stopped

section Runs

variable {s : Session} {e : Established C} {actions : List (Action C.proto)} {c d : State C}

theorem dispatched_unfinished {r : ReadLoop C} (reading : r.state = .reading) (receiverAlive : Bool)
    (message : ProtoMessage C.proto) : ¬ Finished (r.dispatched s receiverAlive message) := by
  unfold ReadLoop.dispatched
  cases s.api.dispatch message with
  | answer response => simp [Finished]
  | ignore => simp [Finished, reading]
  | forward m => cases receiverAlive <;> simp [Finished, ReadLoop.broadcast, ReadLoop.panic, reading]

theorem finished_reads {r r' : ReadLoop C} {receiverAlive : Bool} (reading : r.state = .reading)
    (h : r.Reads s receiverAlive r') (hf : Finished r') : r'.unread = [] := by
  cases h with
  | frame src frame parsed =>
    rcases handle_cases s receiverAlive { r with src := src } frame with ⟨message, k, hc⟩ | ⟨p, hp⟩
    · rw [handle_carries hc] at hf
      exact absurd hf (dispatched_unfinished (r := ({ r with src := src } : ReadLoop C).opened frame message k)
        reading receiverAlive message)
    · rw [hp] at hf
      rcases hf with hf | hf <;> cases hf
  | chunk src chunk chunks parsed next appended => simp [Finished, reading] at hf
  | finished src empty ended kept => rw [ReadLoop.unread_finish kept, empty]
  | broken src reason kept => rcases hf with hf | hf <;> cases hf

theorem finished_run (hP : C.proto.Lawful) (h : run (State.step s) (initial e) actions = some c)
    (hf : Finished c.reader) : c.reader.unread = [] := by
  revert hf
  apply run_invariant (fun u : State C => Finished u.reader → u.reader.unread = []) h
  · rintro (hf | hf) <;> cases hf
  · intro action _ u v hu hv
    cases step_cases hP hv with
    | polled reader reading reads => exact finished_reads reading reads
    | answered response answering running room => rintro (hf | hf) <;> cases hf
    | refused response answering ended => rintro (hf | hf) <;> cases hf
    | finished stopping => exact fun _ => hu (.inl stopping)
    | _ => exact hu

theorem finished_carried (hC : C.Lawful) (h : run (State.step s) (initial e) actions = some c)
    (hf : Finished c.reader) :
    messages c.reader = carried C s.encrypted e.decryptCypher (unreadAt e) := by
  have halive : ¬ panicked c.reader := by
    rintro ⟨p, hp⟩
    rw [Finished, hp] at hf
    rcases hf with hf | hf <;> cases hf
  have hall := handled_rest (history_run hC.proto h).reader halive
  rw [finished_run hC.proto h hf, carried_nil, List.append_nil] at hall
  exact hall.symm

theorem finished_ahead (hC : C.Lawful) {s' : Session} {e' : Established C} {actions' : List (Action C.proto)}
    (he : SameStart e e') (hapi : s.api = s'.api) (hmode : s.encrypted = s'.encrypted)
    (hc : run (State.step s) (initial e) actions = some c)
    (hd : run (State.step s') (initial e') actions' = some d) (hf : Finished c.reader) : Ahead c d := by
  have hc' := history_run hC.proto hc
  have hd' := history_run hC.proto hd
  have hmessages : messages d.reader <+: messages c.reader := by
    rw [finished_carried hC hc hf, hmode, he.decryptCypher, he.unread]
    exact handled_carried hd'.reader
  have hanswers : answersDue s c.reader = acceptedFrom c .readLoop := by
    have howes := hc'.owes
    rcases hf with hf | hf <;>
    · rw [Owes, hf] at howes
      exact howes
  have hbroadcasts : c.reader.outgoing.sent = broadcastsDue s c.reader := by
    apply hc'.reader.broadcast.2
    rintro ⟨p, hp⟩
    rw [Finished, hp] at hf
    rcases hf with hf | hf <;> cases hf
  refine ⟨hmessages, ?_, ?_⟩
  · apply (owes_due hd'.owes).trans
    rw [← hanswers, answersDue, answersDue, ← hapi]
    exact hmessages.filterMap _
  · apply hd'.reader.broadcast.1.trans
    rw [hbroadcasts, broadcastsDue, broadcastsDue, ← hapi]
    exact hmessages.filterMap _

theorem carried_comparable (hC : C.Lawful) {s' : Session} {e' : Established C}
    {actions' : List (Action C.proto)} (he : SameStart e e') (hapi : s.api = s'.api)
    (hmode : s.encrypted = s'.encrypted) (hc : run (State.step s) (initial e) actions = some c)
    (hd : run (State.step s') (initial e') actions' = some d) :
    Comparable (messages c.reader) (messages d.reader) ∧
      Comparable (acceptedFrom c .readLoop) (acceptedFrom d .readLoop) ∧
      Comparable c.reader.outgoing.sent d.reader.outgoing.sent := by
  have hc' := history_run hC.proto hc
  have hd' := history_run hC.proto hd
  have hfirst := handled_carried hc'.reader
  have hsecond := handled_carried hd'.reader
  rw [← hmode, ← he.decryptCypher, ← unreadAt, ← he.unread] at hsecond
  -- all of it is a beginning of what the stream calls for
  refine ⟨List.prefix_or_prefix_of_prefix hfirst hsecond, ?_, ?_⟩
  · apply List.prefix_or_prefix_of_prefix
    · exact (owes_due hc'.owes).trans (hfirst.filterMap _)
    · apply (owes_due hd'.owes).trans
      rw [answersDue, ← hapi]
      exact hsecond.filterMap _
  · apply List.prefix_or_prefix_of_prefix
    · exact hc'.reader.broadcast.1.trans (hfirst.filterMap _)
    · apply hd'.reader.broadcast.1.trans
      rw [broadcastsDue, ← hapi]
      exact hsecond.filterMap _

end Runs

theorem start_sameStart {api : EspHomeApi} {chunks chunks' : List Bytes} (h : chunks.flatten = chunks'.flatten)
    {outcome outcome' : StartRun C} {e e' : Established C} (hstart : start C api chunks = .ok outcome)
    (hstart' : start C api chunks' = .ok outcome') (he : outcome.result = .ok e)
    (he' : outcome'.result = .ok e') : SameStart e e' := by
  have hsame := start_same C api chunks chunks' h
  rw [hstart, hstart'] at hsame
  cases hsame with
  | failed wire shutdown error => cases he
  | established wire shutdown e₁ e₂ same =>
    cases he
    cases he'
    exact same

theorem runs_agree (C : Crates) (hC : C.Lawful) (api : EspHomeApi) (chunks chunks' : List Bytes)
    (h : chunks.flatten = chunks'.flatten) (outcome outcome' : StartRun C) (e e' : Established C)
    (hstart : start C api chunks = .ok outcome) (hstart' : start C api chunks' = .ok outcome')
    (he : outcome.result = .ok e) (he' : outcome'.result = .ok e') (streamEnds streamEnds' : Bool)
    (debugEnabled debugEnabled' : Bool) (actions actions' : List (Action C.proto)) (c d : State C)
    (hc : run (State.step ⟨api, e.encrypted, streamEnds, debugEnabled⟩) (initial e) actions = some c)
    (hd : run (State.step ⟨api, e'.encrypted, streamEnds', debugEnabled'⟩) (initial e') actions' = some d) :
    Comparable (messages c.reader) (messages d.reader) ∧
      Comparable (acceptedFrom c .readLoop) (acceptedFrom d .readLoop) ∧
      Comparable c.reader.outgoing.sent d.reader.outgoing.sent ∧
      (c.reader.state = .stopped → Ahead c d) := by
  have hsame := start_sameStart h hstart hstart' he he'
  have hapi : (⟨api, e.encrypted, streamEnds, debugEnabled⟩ : Session).api =
      (⟨api, e'.encrypted, streamEnds', debugEnabled'⟩ : Session).api := rfl
  obtain ⟨hmessages, hanswers, hbroadcasts⟩ := carried_comparable hC hsame hapi hsame.encrypted hc hd
  exact ⟨hmessages, hanswers, hbroadcasts,
    fun hstopped => finished_ahead hC hsame hapi hsame.encrypted hc hd (.inr hstopped)⟩

def pingsThenEnd : List (Action wireProto) :=
  List.replicate 8 .read

theorem stopped_of_released {r : ReadLoop C} (h : readerHoldsSender r = false) (hr : ¬ panicked r) :
    r.state = .stopped := by
  unfold readerHoldsSender at h
  split at h
  · assumption
  · rename_i p hp
    exact absurd ⟨p, hp⟩ hr
  · cases h

theorem runs_agree_two_pings :
    ∃ c d : State tagCrates,
      run (State.step ⟨plainApi, false, true, false⟩)
        (initial ⟨false, .empty, [[0, 0, 7], [0, 0, 7]], none, none⟩) pingsThenEnd = some c ∧
      run (State.step ⟨plainApi, false, false, true⟩)
        (initial ⟨false, .empty, [[0], [0, 7, 0, 0], [7]], none, none⟩) [.read, .read, .read] = some d ∧
      Ahead c d := by
  have hfirst : ∃ c : State tagCrates, run (State.step ⟨plainApi, false, true, false⟩)
      (initial ⟨false, .empty, [[0, 0, 7], [0, 0, 7]], none, none⟩) pingsThenEnd = some c ∧
      readerHoldsSender c.reader = false ∧ ¬ panicked c.reader := run_check (by decide +kernel)
  have hsecond : ∃ d : State tagCrates, run (State.step ⟨plainApi, false, false, true⟩)
      (initial ⟨false, .empty, [[0], [0, 7, 0, 0], [7]], none, none⟩) [.read, .read, .read] = some d ∧
      (messages d.reader).length = 1 := run_check (by decide +kernel)
  obtain ⟨c, hc, hreleased, halive⟩ := hfirst
  obtain ⟨d, hd, -⟩ := hsecond
  have hagree := runs_agree tagCrates tagCrates_lawful plainApi [[0, 0, 7], [0, 0, 7]]
    [[0], [0, 7, 0, 0], [7]] rfl _ _ _ _ rfl rfl rfl rfl true false false true pingsThenEnd
    [.read, .read, .read] c d hc hd
  exact ⟨c, d, hc, hd, hagree.2.2.2 (stopped_of_released hreleased halive)⟩

end EsphomeNativeApi.ChunkIndependence
