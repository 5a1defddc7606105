import EsphomeNativeApi.Histories

/-!
What a peer reads off the wire, at every moment and however the bytes are cut: the
messages that the answer queue accepted, in its order, up to the first `DisconnectResponse`.
-/

namespace EsphomeNativeApi.OutboundOrder

open RustSemantics MessageTable Frames FrameFormat FrameDecoding FrameEncoding Framing PacketEncrypted
open Start Channels Runs ReadLoops WriteLoops ClientTraffic Connection ReadHistories WriteHistories Histories

variable {C : Crates}

def cutAfterDisconnect {P : Proto} : List (ProtoMessage P) → List (ProtoMessage P)
  | [] => []
  | message :: messages =>
    if isDisconnectResponse message then [message] else message :: cutAfterDisconnect messages

theorem cut_quiet {P : Proto} (before rest : List (ProtoMessage P)) (h : Quiet before) :
    cutAfterDisconnect (before ++ rest) = before ++ cutAfterDisconnect rest := by
  induction before with
  | nil => rfl
  | cons message before ih =>
    obtain ⟨hm, hbefore⟩ := List.forall_mem_cons.mp h
    simp [cutAfterDisconnect, hm, ih hbefore]

theorem cut_split {P : Proto} (before rest : List (ProtoMessage P)) (last : ProtoMessage P) (h : Quiet before) :
    cutAfterDisconnect (before ++ [last] ++ rest) =
      before ++ last :: if isDisconnectResponse last then [] else cutAfterDisconnect rest := by
  rw [List.append_assoc, cut_quiet before _ h, List.singleton_append, cutAfterDisconnect]
  split_ifs <;> rfl

theorem prefix_cut {P : Proto} (messages rest : List (ProtoMessage P)) (h : Quiet messages.dropLast) :
    messages <+: cutAfterDisconnect (messages ++ rest) := by
  rcases List.eq_nil_or_concat messages with rfl | ⟨before, last, rfl⟩
  · exact List.nil_prefix
  · rw [List.concat_eq_append] at h ⊢
    rw [List.dropLast_concat] at h
    rw [cut_split before rest last h]
    apply (List.prefix_append_right_inj before).mpr
    exact ⟨_, rfl⟩

theorem cut_responds {P : Proto} {messages : List (ProtoMessage P)} {response : ProtoMessage P}
    (hm : response ∈ messages) (hd : isDisconnectResponse response = true) :
    ∃ first ∈ cutAfterDisconnect messages, isDisconnectResponse first = true := by
  induction messages with
  | nil => cases hm
  | cons message messages ih =>
    rw [cutAfterDisconnect]
    split_ifs with hfirst
    · exact ⟨message, List.mem_singleton_self message, hfirst⟩
    · have hlater : response ∈ messages := (List.mem_cons.mp hm).resolve_left fun he => hfirst (he ▸ hd)
      obtain ⟨first, hm, hd⟩ := ih hlater
      exact ⟨first, List.mem_cons_of_mem message hm, hd⟩

theorem cut_last {P : Proto} (messages rest : List (ProtoMessage P)) (h : Quiet messages.dropLast)
    (hlast : rest = [] ∨ ¬ Quiet messages) : cutAfterDisconnect (messages ++ rest) = messages := by
  rcases List.eq_nil_or_concat messages with rfl | ⟨before, last, rfl⟩
  · rcases hlast with rfl | hlast
    · rfl
    · exact absurd (List.forall_mem_nil _) hlast
  · rw [List.concat_eq_append] at h hlast ⊢
    rw [List.dropLast_concat] at h
    rw [cut_split before rest last h]
    by_cases hd : isDisconnectResponse last = true
    · rw [if_pos hd]
    · have hquiet : Quiet (before ++ [last]) := List.forall_mem_append.mpr
        ⟨h, List.forall_mem_singleton.mpr (Bool.eq_false_iff.mpr hd)⟩
      rw [if_neg hd, hlast.resolve_right fun hloud => hloud hquiet, cutAfterDisconnect]

def Fits (C : Crates) (encrypted : Bool) (message : ProtoMessage C.proto) : Prop :=
  encrypted = true → ∀ content, protoToVec message = .ok content → 4 + content.length + 16 ≤ 65535

theorem seals_isFrame (hA : C.aead.Lawful) {encrypted : Bool} {k k' : Option (CipherState C.aead)}
    {message : ProtoMessage C.proto} {packet : Bytes} (h : Seals C encrypted k message packet k')
    (hfits : Fits C encrypted message) : IsFrame encrypted (frameOf encrypted packet) packet := by
  cases h with
  | plaintext _ _ short =>
    exact frameOf_plaintext _ (PacketPlaintext.packetOf_ne_nil message) (short.trans (by decide))
  | encrypted key n _ short =>
    have := hfits rfl _ rfl
    apply frameOf_encrypted
    rw [hA.encrypt_length, contentOf_length]
    omega

theorem seals_carries (hC : C.Lawful) {encrypted : Bool} {k k' : Option (CipherState C.aead)}
    {message : ProtoMessage C.proto} {packet : Bytes} (h : Seals C encrypted k message packet k') :
    Carries C encrypted k packet message k' := by
  apply (openFrame_ok_iff _ _ _ _ _).mp
  cases h with
  | plaintext _ _ short =>
    simp [openFrame, PacketPlaintext.packetToMessage_packetOf hC.proto]
  | encrypted key n _ short =>
    have := packetToMessage_sealed hC.proto hC.aead message ⟨key, n⟩
    simp [openFrame, this]

theorem sealed_opens (hC : C.Lawful) {encrypted : Bool} {k k' : Option (CipherState C.aead)}
    {messages : List (ProtoMessage C.proto)} {packets : List Bytes}
    (h : Sealed C encrypted k messages packets k') :
    openFrames C encrypted k packets = .ok (messages, k') := by
  induction h with
  | none => rfl
  | snoc before last ih => exact openFrames_snoc ih (seals_carries hC last)

theorem sealed_frames (hA : C.aead.Lawful) {encrypted : Bool} {k k' : Option (CipherState C.aead)}
    {messages : List (ProtoMessage C.proto)} {packets : List Bytes}
    (h : Sealed C encrypted k messages packets k') (hfits : ∀ message ∈ messages, Fits C encrypted message) :
    List.Forall₂ (IsEncoding (decoder encrypted)) (packets.map (frameOf encrypted)) packets := by
  induction h with
  | none => exact .nil
  | snoc before last ih =>
    rw [List.map_append]
    have hparses := parse_isFrame (seals_isFrame hA last (hfits _ (by simp)))
    apply List.rel_append
    · exact ih fun m hm => hfits m (List.mem_append_left _ hm)
    · exact .cons hparses .nil

/-- A peer with cipher state `k` reads the wire, cut in any way, as these messages, and
keeps the bytes that are left. -/
def Reads (C : Crates) (encrypted : Bool) (k : Option (CipherState C.aead)) (wire : Bytes)
    (messages : List (ProtoMessage C.proto)) (left : Bytes) : Prop :=
  ∃ frames k', openFrames C encrypted k frames = .ok (messages, k') ∧
    ∀ chunks : List Bytes, chunks.flatten = wire →
      ∃ rest, (FrameCodec.new encrypted).deliver C.proto .empty chunks = .ok (frames, none, rest) ∧
        rest.data = left

theorem reads_of_drain (hP : C.proto.Lawful) {encrypted : Bool} {k k' : Option (CipherState C.aead)}
    {wire left : Bytes} {messages : List (ProtoMessage C.proto)} {frames : List Bytes}
    (ho : openFrames C encrypted k frames = .ok (messages, k'))
    (hd : drain (decoder encrypted) wire = (frames, .ok left)) : Reads C encrypted k wire messages left := by
  refine ⟨frames, k', ho, ?_⟩
  intro chunks hc
  obtain ⟨⟨frames', e, rest⟩, hdel, hi⟩ := deliver_eq (.new encrypted) (fun _ => hP) .empty chunks
  have hfeed := feed_eq_drain (decoder encrypted) [] chunks (decoder encrypted).nil_incomplete
  rw [List.nil_append, hc, hd] at hfeed
  simp only [BytesMut.empty_data, FrameCodec.new, hfeed] at hi
  obtain ⟨rfl, rfl, hrest⟩ : frames' = frames ∧ e = none ∧ rest.data = left := hi
  exact ⟨rest, hdel, hrest⟩

theorem quiet_dropLast {P : Proto} {messages : List (ProtoMessage P)} (h : Quiet messages) :
    Quiet messages.dropLast := fun m hm => h m (List.mem_of_mem_dropLast hm)

theorem writer_reads (hC : C.Lawful) {encrypted : Bool} {k : Option (CipherState C.aead)}
    {taken : List (ProtoMessage C.proto)} {w : WriteLoop C} (h : WriterHistory encrypted k taken w)
    (hfits : ∀ message ∈ taken, Fits C encrypted message) :
    ∃ decoded inFlight left, Reads C encrypted k w.wire decoded left ∧ taken = decoded ++ inFlight ∧
      inFlight.length ≤ 1 ∧ Quiet decoded.dropLast ∧ (¬ Quiet decoded → left = [] ∧ w.state = .stopped) := by
  have hwhole : ∀ messages packets k', Sealed C encrypted k messages packets k' →
      (∀ message ∈ messages, Fits C encrypted message) → w.wire = framesOf encrypted packets →
      Reads C encrypted k w.wire messages [] := by
    intro messages packets k' hsealed hfit hwire
    apply reads_of_drain hC.proto (sealed_opens hC hsealed)
    rw [hwire, framesOf, drain_exact _ _ _ (sealed_frames hC.aead hsealed hfit)]
  unfold WriterHistory at h
  split at h
  · obtain ⟨hquiet, packets, hsealed, hwire⟩ := h
    exact ⟨taken, [], [], hwhole _ _ _ hsealed hfits hwire, by simp, by simp, quiet_dropLast hquiet,
      fun hn => absurd hquiet hn⟩
  · obtain ⟨hquiet, packets, hsealed, hwire⟩ := h
    exact ⟨taken, [], [], hwhole _ _ _ hsealed hfits hwire, by simp, by simp, quiet_dropLast hquiet,
      fun hn => absurd hquiet hn⟩
  · rename_i m pending hw
    obtain ⟨before, packets, packet, k', done, rfl, hquiet, hsealed, hlast, hwire, hframe, hne⟩ := h
    have hbefore : ∀ message ∈ before, Fits C encrypted message :=
      fun message hm => hfits message (List.mem_append_left _ hm)
    have hpartial : drain (decoder encrypted) done = ([], .ok done) := by
      have hparses := parse_isFrame (seals_isFrame hC.aead hlast (hfits m (by simp)))
      rw [hframe] at hparses
      exact drain_partial (decoder encrypted) hparses hne
    refine ⟨before, [m], done, reads_of_drain hC.proto (sealed_opens hC hsealed) ?_, rfl, le_refl _,
      quiet_dropLast hquiet, fun hn => absurd hquiet hn⟩
    rw [hwire, framesOf, drain_encodings _ _ _ _ (sealed_frames hC.aead hsealed hbefore), hpartial,
      List.append_nil]
  · rename_i hw
    obtain ⟨hquiet, packets, hsealed, hwire⟩ := h
    exact ⟨taken, [], [], hwhole _ _ _ hsealed hfits hwire, by simp, by simp, hquiet, fun _ => ⟨rfl, hw⟩⟩
  · obtain ⟨written, refused, packets, rfl, hone, hquiet, hsealed, hwire⟩ := h
    exact ⟨written, refused, [],
      hwhole _ _ _ hsealed (fun m hm => hfits m (List.mem_append_left _ hm)) hwire, rfl, hone,
      quiet_dropLast hquiet, fun hn => absurd hquiet hn⟩

theorem stopped_run (hP : C.proto.Lawful) {s : Session} {c d : State C} {actions : List (Action C.proto)}
    (hc : c.writer.state = .stopped) (h : run (State.step s) c actions = some d) : d.writer = c.writer := by
  apply run_invariant (fun u : State C => u.writer = c.writer) h rfl
  intro action _ u v hu hv
  have hended : u.writer.running = false := by
    rw [hu, WriteLoop.running, hc]
  exact (ended_frame hended (step_cases hP hv)).1.trans hu

theorem outbound_order (C : Crates) (hC : C.Lawful) (s : Session) (e : Established C)
    (actions : List (Action C.proto)) (c : State C)
    (h : run (State.step s) (initial e) actions = some c)
    (hfits : ∀ entry ∈ c.answers.accepted, Fits C s.encrypted entry.2) :
    ∃ decoded inFlight left,
      Reads C s.encrypted e.encryptCypher c.writer.wire decoded left ∧
      decoded <+: cutAfterDisconnect (c.answers.accepted.map Prod.snd) ∧
      taken c = decoded ++ inFlight ∧ inFlight.length ≤ 1 ∧
      (∀ task, acceptedFrom c (.application task) = sendsOf task actions) ∧
      acceptedFrom c .readLoop <+: answersDue s c.reader ∧
      (∀ message ∈ decoded, isDisconnectResponse message = true →
        left = [] ∧ ∀ more d, run (State.step s) c more = some d → d.writer.wire = c.writer.wire) := by
  have hhistory := history_run hC.proto h
  have htaken : ∀ message ∈ taken c, Fits C s.encrypted message := by
    intro message hm
    obtain ⟨entry, he, rfl⟩ := List.mem_map.mp hm
    exact hfits entry (c.answers.taken_accepted.subset he)
  obtain ⟨decoded, inFlight, left, hreads, hsplit, hone, hquiet, hlast⟩ :=
    writer_reads hC hhistory.writer htaken
  refine ⟨decoded, inFlight, left, hreads, ?_, hsplit, hone, hhistory.sends, owes_due hhistory.owes, ?_⟩
  · have haccepted : c.answers.accepted.map Prod.snd =
        decoded ++ (inFlight ++ c.answers.queue.map Prod.snd) := by
      rw [Mpsc.accepted, List.map_append, ← List.append_assoc, ← hsplit, taken]
    rw [haccepted]
    exact prefix_cut decoded _ hquiet
  · intro message hm hd
    have hloud : ¬ Quiet decoded := fun hq => by simp [hq message hm] at hd
    obtain ⟨hleft, hstopped⟩ := hlast hloud
    exact ⟨hleft, fun more d hrun => by rw [stopped_run hC.proto hstopped hrun]⟩

theorem emptyMessage_fits (kind : MessageKind) : Fits tagCrates true ⟨kind, []⟩ := by
  intro _ content h
  obtain rfl : ([] : Bytes) = content := Except.ok.inj h
  decide

def encryptedSession : Session := ⟨{ name := "test-device" }, true, false, false⟩

def encryptedStart : Established tagCrates := ⟨true, .empty, [], some ⟨(), 0⟩, some ⟨(), 0⟩⟩

def disconnectThenPing : List (Action wireProto) :=
  [.send 0 ⟨.disconnectResponse, []⟩, .send 1 ⟨.pingResponse, []⟩, .write 0, .write 0, .write 10, .write 100]

theorem outbound_order_disconnect_then_ping :
    ∃ c : State tagCrates, run (State.step encryptedSession) (initial encryptedStart) disconnectThenPing = some c ∧
    ∃ decoded inFlight left,
      Reads tagCrates true (some ⟨(), 0⟩) c.writer.wire decoded left ∧
      decoded <+: cutAfterDisconnect (c.answers.accepted.map Prod.snd) ∧
      taken c = decoded ++ inFlight ∧ inFlight.length ≤ 1 ∧
      (∀ task, acceptedFrom c (.application task) = sendsOf task disconnectThenPing) ∧
      acceptedFrom c .readLoop <+: answersDue encryptedSession c.reader ∧
      (∀ message ∈ decoded, isDisconnectResponse message = true →
        left = [] ∧ ∀ more d, run (State.step encryptedSession) c more = some d →
          d.writer.wire = c.writer.wire) :=
  ⟨_, rfl, outbound_order tagCrates tagCrates_lawful encryptedSession encryptedStart disconnectThenPing _ rfl
    (List.forall_mem_cons.mpr
      ⟨emptyMessage_fits _, List.forall_mem_cons.mpr ⟨emptyMessage_fits _, List.forall_mem_nil _⟩⟩)⟩

end EsphomeNativeApi.OutboundOrder
