import EsphomeNativeApi.WriteLoops

/-!
What the write loop has done so far: the wire holds the frames of the answers it took.
-/

namespace EsphomeNativeApi.WriteHistories

open RustSemantics MessageTable FrameEncoding PacketEncrypted Start Channels ReadLoops WriteLoops

variable {C : Crates}

inductive Sealed (C : Crates) (encrypted : Bool) (k : Option (CipherState C.aead)) :
    List (ProtoMessage C.proto) → List Bytes → Option (CipherState C.aead) → Prop where
  | none : Sealed C encrypted k [] [] k
  | snoc {messages packets k' message packet k''} (before : Sealed C encrypted k messages packets k')
      (last : Seals C encrypted k' message packet k'') :
      Sealed C encrypted k (messages ++ [message]) (packets ++ [packet]) k''

def framesOf (encrypted : Bool) (packets : List Bytes) : Bytes := (packets.map (frameOf encrypted)).flatten

def Quiet {P : Proto} (messages : List (ProtoMessage P)) : Prop :=
  ∀ message ∈ messages, isDisconnectResponse message = false

/-- The wire holds the frames of the answers taken, up to the one being written or refused
by the codec. Only the last can be a `DisconnectResponse`. -/
def WriterHistory (encrypted : Bool) (k : Option (CipherState C.aead)) (taken : List (ProtoMessage C.proto))
    (w : WriteLoop C) : Prop :=
  match w.state with
  | .pollCancellation | .pollAnswers =>
    Quiet taken ∧ ∃ packets, Sealed C encrypted k taken packets w.encryptCypher ∧
      w.wire = framesOf encrypted packets
  | .writing answerMessage pending =>
    ∃ before packets packet k' done, taken = before ++ [answerMessage] ∧ Quiet before ∧
      Sealed C encrypted k before packets k' ∧ Seals C encrypted k' answerMessage packet w.encryptCypher ∧
      w.wire = framesOf encrypted packets ++ done ∧ frameOf encrypted packet = done ++ pending ∧ pending ≠ []
  | .stopped =>
    Quiet taken.dropLast ∧ ∃ packets, Sealed C encrypted k taken packets w.encryptCypher ∧
      w.wire = framesOf encrypted packets
  | .panicked _ =>
    ∃ written refused packets, taken = written ++ refused ∧ refused.length ≤ 1 ∧ Quiet written ∧
      Sealed C encrypted k written packets w.encryptCypher ∧ w.wire = framesOf encrypted packets

variable {s : Session} {k : Option (CipherState C.aead)} {taken : List (ProtoMessage C.proto)}
  {w : WriteLoop C}

theorem framesOf_snoc (encrypted : Bool) (packets : List Bytes) (packet : Bytes) :
    framesOf encrypted (packets ++ [packet]) = framesOf encrypted packets ++ frameOf encrypted packet := by
  simp [framesOf]

theorem writerHistory_polled (h : WriterHistory s.encrypted k taken w) (hw : w.state = .pollCancellation)
    (cancellation : Oneshot String) :
    WriterHistory s.encrypted k taken (w.pollCancellation s cancellation) := by
  rw [WriterHistory, hw] at h
  obtain ⟨hquiet, packets, hsealed, hwire⟩ := h
  cases cancellation with
  | waiting => exact ⟨hquiet, packets, hsealed, hwire⟩
  | sent reason => exact ⟨fun m hm => hquiet m (List.mem_of_mem_dropLast hm), packets, hsealed, hwire⟩
  | senderDropped =>
    unfold WriteLoop.pollCancellation
    cases s.debugEnabled with
    | true => exact ⟨taken, [], packets, by simp, by simp, hquiet, hsealed, hwire⟩
    | false => exact ⟨fun m hm => hquiet m (List.mem_of_mem_dropLast hm), packets, hsealed, hwire⟩

theorem writerHistory_answer (hP : C.proto.Lawful) (h : WriterHistory s.encrypted k taken w)
    (hw : w.state = .pollAnswers) (message : ProtoMessage C.proto) :
    WriterHistory s.encrypted k (taken ++ [message]) (w.answer s message) := by
  rw [WriterHistory, hw] at h
  obtain ⟨hquiet, packets, hsealed, hwire⟩ := h
  unfold WriteLoop.answer
  cases hs : sealAnswer C s.encrypted w.encryptCypher message with
  | error p => exact ⟨taken, [message], packets, rfl, le_refl _, hquiet, hsealed, hwire⟩
  | ok result =>
    obtain ⟨packet, hlast, hbytes⟩ := (sealAnswer_ok_iff hP _ _ _ _ _).mp hs
    refine ⟨taken, packets, packet, w.encryptCypher, [], rfl, hquiet, hsealed, hlast, by simp [hwire],
      hbytes.symm, ?_⟩
    rw [hbytes]
    exact frameOf_ne_nil _ _

theorem mem_taken_of_writing (h : WriterHistory s.encrypted k taken w) {message : ProtoMessage C.proto}
    {pending : Bytes} (hw : w.state = .writing message pending) : message ∈ taken := by
  rw [WriterHistory, hw] at h
  obtain ⟨before, -, -, -, -, htaken, -⟩ := h
  rw [htaken]
  exact List.mem_append_right _ (List.mem_singleton_self message)

theorem writerHistory_write (h : WriterHistory s.encrypted k taken w) (count : ℕ)
    {message : ProtoMessage C.proto} {pending : Bytes} (hw : w.state = .writing message pending) :
    WriterHistory s.encrypted k taken (w.write count message pending) := by
  rw [WriterHistory, hw] at h
  obtain ⟨before, packets, packet, k', done, rfl, hquiet, hsealed, hlast, hwire, hframe, hne⟩ := h
  unfold WriteLoop.write
  split_ifs with hcount hd
  · refine ⟨by simpa using hquiet, packets ++ [packet], .snoc hsealed hlast, ?_⟩
    rw [framesOf_snoc, hframe, hwire, List.append_assoc]
  · refine ⟨?_, packets ++ [packet], .snoc hsealed hlast, ?_⟩
    · intro m hm
      rcases List.mem_append.mp hm with hm | hm
      · exact hquiet m hm
      · rw [List.mem_singleton.mp hm]
        exact Bool.eq_false_iff.mpr hd
    · rw [framesOf_snoc, hframe, hwire, List.append_assoc]
  · refine ⟨before, packets, packet, k', done ++ pending.take count, rfl, hquiet, hsealed, hlast, ?_, ?_, ?_⟩
    · rw [hwire, List.append_assoc]
    · rw [hframe, List.append_assoc, List.take_append_drop]
    · exact List.ne_nil_of_length_pos (by rw [List.length_drop]; omega)

end EsphomeNativeApi.WriteHistories
