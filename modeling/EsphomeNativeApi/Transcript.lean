import EsphomeNativeApi.EncryptionEnforced
import EsphomeNativeApi.OutboundOrder

/-!
All that a connection writes, from the first byte of the handshake on, as the client reads it.
-/

namespace EsphomeNativeApi.Transcript

open RustSemantics MessageTable Frames FrameFormat FrameDecoding FrameEncoding Framing PacketEncrypted Api
open Start Handshake Channels Runs ReadLoops WriteLoops ClientTraffic Connection ReadHistories
open WriteHistories Histories OutboundOrder EncryptionEnforced

variable {C : Crates}

/-- The frames that `start` writes before it spawns the loops. -/
def Greets (C : Crates) (api : EspHomeApi) (encrypted : Bool) (greeting : List Bytes) : Prop :=
  if encrypted then
    ∃ st out st', C.noise.writeMessageVec st [] = .ok (.ok out, st') ∧
      greeting = [generateServerHelloFrame api.name api.mac, [0] ++ out]
  else greeting = []

/-- The hello and the answer to the handshake fit their 16-bit lengths. -/
structure GreetingFits (C : Crates) (api : EspHomeApi) : Prop where
  hello : (generateServerHelloFrame api.name api.mac).length < 65536
  answer : ∀ st out st', C.noise.writeMessageVec st [] = .ok (.ok out, st') → out.length < 65535

theorem start_greets (hC : C.Lawful) {api : EspHomeApi} {chunks : List Bytes} {outcome : StartRun C}
    {e : Established C} (h : start C api chunks = .ok outcome) (he : outcome.result = .ok e) :
    ∃ greeting, Greets C api e.encrypted greeting ∧ outcome.wire = framesOf true greeting := by
  cases hs : chunks.flatten with
  | nil =>
    rw [start_empty hs] at h
    cases h
    cases he
  | cons preamble stream =>
    have hhead : chunks.flatten.head? = some preamble := by
      rw [hs]
      rfl
    rw [start_of_head hhead] at h
    split_ifs at h with h0 hk h1
    · cases h
      cases he
    · cases h
      cases he
      exact ⟨[], rfl, rfl⟩
    · cases hk : api.encryptionKey with
      | none =>
        rw [hk] at h
        cases h
        cases he
      | some key =>
        rw [hk] at h
        obtain ⟨hello, request, src, chunks', -, -, hr⟩ := handshake_ok h
        obtain ⟨st, hst⟩ := readRequest_readable hC hr
        rcases (readRequest_cases hC hst).mp hr with ⟨st', -, rfl⟩ | ⟨payload, st', out, st'', -, hw, rfl⟩
        · cases he
        · cases he
          exact ⟨_, ⟨st', out, st'', hw, rfl⟩, by simp [framesOf, acceptance]⟩
    · cases h
      cases he

theorem greeting_frames {api : EspHomeApi} (hfits : GreetingFits C api) {encrypted : Bool}
    {greeting : List Bytes} (h : Greets C api encrypted greeting) :
    List.Forall₂ (IsEncoding (decoder encrypted)) (greeting.map (frameOf true)) greeting := by
  cases encrypted with
  | false =>
    obtain rfl : greeting = [] := h
    exact .nil
  | true =>
    obtain ⟨st, out, st', hw, rfl⟩ := h
    have hout := hfits.answer st out st' hw
    apply List.Forall₂.cons
    · exact parse_isFrame (frameOf_encrypted _ hfits.hello)
    · apply List.Forall₂.cons
      · apply parse_isFrame (frameOf_encrypted _ _)
        rw [List.length_append, List.length_singleton]
        omega
      · exact .nil

theorem deliver_drains (hP : C.proto.Lawful) (encrypted : Bool) (cut : List Bytes) :
    ∃ out, (FrameCodec.new encrypted).deliver C.proto .empty cut = .ok out ∧
      Implements out (drain (decoder encrypted) cut.flatten) := by
  obtain ⟨out, hd, hi⟩ := deliver_eq (.new encrypted) (fun _ => hP) .empty cut
  rw [BytesMut.empty_data, feed_eq_drain _ _ _ (decoder _).nil_incomplete, List.nil_append] at hi
  exact ⟨out, hd, hi⟩

theorem drain_of_reads (hP : C.proto.Lawful) {encrypted : Bool} {k : Option (CipherState C.aead)}
    {wire left : Bytes} {messages : List (ProtoMessage C.proto)}
    (h : Reads C encrypted k wire messages left) :
    ∃ frames k', openFrames C encrypted k frames = .ok (messages, k') ∧
      drain (decoder encrypted) wire = (frames, .ok left) := by
  obtain ⟨frames, k', ho, hall⟩ := h
  refine ⟨frames, k', ho, ?_⟩
  obtain ⟨rest, hd, rfl⟩ := hall [wire] (by simp)
  obtain ⟨out, hout, hframes, hrest⟩ := deliver_drains hP encrypted [wire]
  rw [hd] at hout
  cases hout
  rw [List.flatten_singleton] at hframes hrest
  cases hdrain : (drain (decoder encrypted) wire).2 with
  | error e =>
    rw [hdrain] at hrest
    cases hrest
  | ok rest' =>
    rw [hdrain] at hrest
    exact Prod.ext hframes.symm (hdrain.trans (congrArg Except.ok hrest.2.symm))

theorem deliver_of_drain (hP : C.proto.Lawful) {encrypted : Bool} {wire left : Bytes} {frames : List Bytes}
    (h : drain (decoder encrypted) wire = (frames, .ok left)) (cut : List Bytes) (hcut : cut.flatten = wire) :
    ∃ rest, (FrameCodec.new encrypted).deliver C.proto .empty cut = .ok (frames, none, rest) ∧
      rest.data = left := by
  obtain ⟨⟨frames', e, rest⟩, hd, hi⟩ := deliver_drains hP encrypted cut
  rw [hcut, h] at hi
  obtain ⟨rfl, rfl, hrest⟩ : frames' = frames ∧ e = none ∧ rest.data = left := hi
  exact ⟨rest, hd, hrest⟩

theorem transcript (C : Crates) (hC : C.Lawful) (api : EspHomeApi) (hgreeting : GreetingFits C api)
    (chunks : List Bytes) (outcome : StartRun C) (e : Established C)
    (hstart : start C api chunks = .ok outcome) (he : outcome.result = .ok e)
    (streamEnds debugEnabled : Bool) (actions : List (Action C.proto)) (c : State C)
    (h : run (State.step ⟨api, e.encrypted, streamEnds, debugEnabled⟩) (initial e) actions = some c)
    (hfits : ∀ entry ∈ c.answers.accepted, Fits C e.encrypted entry.2) :
    ∃ greeting packets decoded inFlight left k, Greets C api e.encrypted greeting ∧
      (∀ cut : List Bytes, cut.flatten = outcome.wire ++ c.writer.wire →
        ∃ rest, (FrameCodec.new e.encrypted).deliver C.proto .empty cut =
          .ok (greeting ++ packets, none, rest) ∧ rest.data = left) ∧
      openFrames C e.encrypted e.encryptCypher packets = .ok (decoded, k) ∧
      decoded <+: cutAfterDisconnect (c.answers.accepted.map Prod.snd) ∧
      taken c = decoded ++ inFlight ∧ inFlight.length ≤ 1 := by
  have hhistory := history_run hC.proto h
  have htaken : ∀ message ∈ taken c, Fits C e.encrypted message := by
    intro message hm
    obtain ⟨entry, hentry, rfl⟩ := List.mem_map.mp hm
    exact hfits entry (c.answers.taken_accepted.subset hentry)
  obtain ⟨decoded, inFlight, left, hreads, hsplit, hone, hquiet, -⟩ := writer_reads hC hhistory.writer htaken
  obtain ⟨packets, k, hopens, hdrain⟩ := drain_of_reads hC.proto hreads
  obtain ⟨greeting, hgreets, hwire⟩ := start_greets hC hstart he
  refine ⟨greeting, packets, decoded, inFlight, left, k, hgreets, ?_, hopens, ?_, hsplit, hone⟩
  · apply deliver_of_drain hC.proto
    rw [hwire, framesOf, drain_encodings _ _ _ _ (greeting_frames hgreeting hgreets), hdrain]
  · have haccepted : c.answers.accepted.map Prod.snd =
        decoded ++ (inFlight ++ c.answers.queue.map Prod.snd) := by
      rw [Mpsc.accepted, List.map_append, ← List.append_assoc, ← hsplit, taken]
    rw [haccepted]
    exact prefix_cut decoded _ hquiet

theorem keyedApi_greeting : GreetingFits tagCrates keyedApi where
  hello := by decide +kernel
  answer st out st' h := by
    simp only [tagCrates, tagNoise] at h
    split_ifs at h
    cases h
    decide

set_option maxRecDepth 4000 in
theorem transcript_ping_answered :
    ∃ outcome e c, start tagCrates keyedApi pingingClient = .ok outcome ∧ outcome.result = .ok e ∧
      run (State.step ⟨keyedApi, true, false, false⟩) (initial e) pingAnswered = some c ∧
      ∃ greeting packets decoded inFlight left k, Greets tagCrates keyedApi true greeting ∧
        (∀ cut : List Bytes, cut.flatten = outcome.wire ++ c.writer.wire →
          ∃ rest, (FrameCodec.new true).deliver wireProto .empty cut = .ok (greeting ++ packets, none, rest) ∧
            rest.data = left) ∧
        openFrames tagCrates true e.encryptCypher packets = .ok (decoded, k) ∧
        decoded <+: cutAfterDisconnect (c.answers.accepted.map Prod.snd) ∧
        taken c = decoded ++ inFlight ∧ inFlight.length ≤ 1 :=
  ⟨_, _, _, rfl, rfl, rfl,
    transcript tagCrates tagCrates_lawful keyedApi keyedApi_greeting pingingClient _ _ rfl rfl false false
      pingAnswered _ rfl (List.forall_mem_cons.mpr ⟨emptyMessage_fits _, List.forall_mem_nil _⟩)⟩

end EsphomeNativeApi.Transcript
