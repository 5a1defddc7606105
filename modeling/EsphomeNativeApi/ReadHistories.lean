import EsphomeNativeApi.ClientTraffic

/-!
What the read loop has done so far: from which bytes the messages it handled were opened,
and which answers and broadcasts they called for.
-/

namespace EsphomeNativeApi.ReadHistories

open RustSemantics MessageTable Frames FrameFormat PacketEncrypted Api Start Channels ReadLoops
open ClientTraffic

variable {C : Crates}

def panicked (r : ReadLoop C) : Prop := ∃ p, r.state = .panicked p

instance (r : ReadLoop C) : Decidable (panicked r) :=
  match h : r.state with
  | .panicked p => isTrue ⟨p, h⟩
  | .reading => isFalse fun ⟨_, hp⟩ => nomatch h.symm.trans hp
  | .answering _ => isFalse fun ⟨_, hp⟩ => nomatch h.symm.trans hp
  | .stopping => isFalse fun ⟨_, hp⟩ => nomatch h.symm.trans hp
  | .stopped => isFalse fun ⟨_, hp⟩ => nomatch h.symm.trans hp

def messages (r : ReadLoop C) : List (ProtoMessage C.proto) := r.handled.map Prod.snd

def answersDue (s : Session) (r : ReadLoop C) : List (ProtoMessage C.proto) :=
  (messages r).filterMap fun message => (s.api.dispatch message).answer?

def broadcastsDue (s : Session) (r : ReadLoop C) : List (ProtoMessage C.proto) :=
  (messages r).filterMap fun message => (s.api.dispatch message).forward?

/-- The messages to forward among those received. -/
def forwarded (s : Session) {P : Proto} (received : List (ProtoMessage P)) : List (ProtoMessage P) :=
  received.filterMap fun message => (s.api.dispatch message).forward?

theorem mem_filterMap_answer {s : Session} {P : Proto} {requests : List (ProtoMessage P)}
    {answer : ProtoMessage P}
    (h : answer ∈ requests.filterMap fun message => (s.api.dispatch message).answer?) :
    ∃ message ∈ requests, s.api.dispatch message = .answer answer := by
  obtain ⟨message, hm, ha⟩ := List.mem_filterMap.mp h
  exact ⟨message, hm, dispatch_answer? ha⟩

theorem mem_broadcastsDue {s : Session} {r : ReadLoop C} {message : ProtoMessage C.proto}
    (h : message ∈ broadcastsDue s r) : message ∈ messages r := by
  obtain ⟨m, hm, hf⟩ := List.mem_filterMap.mp h
  rw [dispatch_forward (dispatch_forward? hf)]
  exact hm

/-- The messages handled were opened, one after another, from whole frames of the stream,
and those to forward were broadcast. -/
structure ReaderHistory (s : Session) (k : Option (CipherState C.aead)) (stream : Bytes)
    (r : ReadLoop C) : Prop where
  opened : openFrames C s.encrypted k (r.handled.map Prod.fst) = .ok (messages r, r.decryptCypher)
  framed : ∃ ws rest, List.Forall₂ (IsFrame s.encrypted) ws (r.handled.map Prod.fst) ∧
    stream = ws.flatten ++ rest ∧ (¬ panicked r → rest = r.unread)
  broadcast : r.outgoing.sent <+: broadcastsDue s r ∧ (¬ panicked r → r.outgoing.sent = broadcastsDue s r)

variable {s : Session} {k : Option (CipherState C.aead)} {stream : Bytes} {r t : ReadLoop C}

theorem readerHistory_new (src : BytesMut) (incoming : List Bytes) :
    ReaderHistory s k (src.data ++ incoming.flatten) (.new src incoming k : ReadLoop C) where
  opened := rfl
  framed := ⟨[], _, .nil, rfl, fun _ => rfl⟩
  broadcast := ⟨List.prefix_refl _, fun _ => rfl⟩

theorem readerHistory_congr (h : ReaderHistory s k stream r) (hhandled : t.handled = r.handled)
    (hk : t.decryptCypher = r.decryptCypher) (hsent : t.outgoing.sent = r.outgoing.sent)
    (halive : ¬ panicked t → ¬ panicked r ∧ t.unread = r.unread) : ReaderHistory s k stream t where
  opened := by rw [messages, hhandled, hk]; exact h.opened
  framed := by
    obtain ⟨ws, rest, hws, hs, hrest⟩ := h.framed
    exact ⟨ws, rest, hhandled ▸ hws, hs, fun hn => (halive hn).2 ▸ hrest (halive hn).1⟩
  broadcast := by
    rw [hsent, broadcastsDue, messages, hhandled]
    exact ⟨h.broadcast.1, fun hn => h.broadcast.2 (halive hn).1⟩

theorem readerHistory_panic (h : ReaderHistory s k stream r) (src : BytesMut) (p : Panic) :
    ReaderHistory s k stream (({ r with src := src } : ReadLoop C).panic p) :=
  readerHistory_congr h rfl rfl rfl fun hn => absurd ⟨p, rfl⟩ hn

theorem filterMap_snoc {α β : Type} (f : α → Option β) (l : List α) (a : α) :
    (l ++ [a]).filterMap f = l.filterMap f ++ (f a).toList := by
  rw [List.filterMap_append, List.filterMap_cons, List.filterMap_nil]
  cases f a <;> rfl

theorem readerHistory_opened (h : ReaderHistory s k stream r) (hr : ¬ panicked r) {src : BytesMut}
    {frame : Bytes} {message : ProtoMessage C.proto}
    (hp : parse s.encrypted r.src.data = .frame frame src.data)
    (hc : Carries C s.encrypted r.decryptCypher frame message t.decryptCypher)
    (hhandled : t.handled = r.handled ++ [(frame, message)])
    (hunread : t.unread = src.data ++ r.incoming.flatten)
    (hsent : t.outgoing.sent <+: broadcastsDue s r ++ (s.api.dispatch message).forward?.toList ∧
      (¬ panicked t →
        t.outgoing.sent = broadcastsDue s r ++ (s.api.dispatch message).forward?.toList)) :
    ReaderHistory s k stream t where
  opened := by
    rw [messages, hhandled, List.map_append, List.map_append]
    exact openFrames_snoc h.opened hc
  framed := by
    obtain ⟨w, hw, hsplit⟩ := isFrame_of_parse hp
    obtain ⟨ws, rest, hws, hs, hrest⟩ := h.framed
    refine ⟨ws ++ [w], t.unread, ?_, ?_, fun _ => rfl⟩
    · rw [hhandled, List.map_append]
      exact List.rel_append hws (.cons hw .nil)
    · rw [hs, hrest hr, ReadLoop.unread, hsplit, hunread]
      simp
  broadcast := by
    rw [broadcastsDue, messages, hhandled, List.map_append, List.map_singleton, filterMap_snoc]
    exact hsent

theorem readerHistory_dispatched (h : ReaderHistory s k stream r) (hr : ¬ panicked r) {src : BytesMut}
    {frame : Bytes} {message : ProtoMessage C.proto} {k' : Option (CipherState C.aead)}
    (hp : parse s.encrypted r.src.data = .frame frame src.data)
    (hc : Carries C s.encrypted r.decryptCypher frame message k') (receiverAlive : Bool) :
    ReaderHistory s k stream
      ((({ r with src := src } : ReadLoop C).opened frame message k').dispatched s receiverAlive message) := by
  have hsent := h.broadcast.2 hr
  unfold ReadLoop.dispatched
  cases hd : s.api.dispatch message with
  | answer response =>
    apply readerHistory_opened h hr hp hc rfl rfl
    simp [hd, Dispatch.forward?, ReadLoop.opened, hsent]
  | ignore =>
    apply readerHistory_opened h hr hp hc rfl rfl
    simp [hd, Dispatch.forward?, ReadLoop.opened, hsent]
  | forward m =>
    cases receiverAlive with
    | true =>
      apply readerHistory_opened h hr hp hc rfl rfl
      simp [hd, Dispatch.forward?, ReadLoop.opened, ReadLoop.broadcast, hsent]
    | false =>
      refine readerHistory_opened h hr hp hc rfl rfl ⟨?_, fun hn => absurd ⟨_, rfl⟩ hn⟩
      simp [hd, Dispatch.forward?, ReadLoop.opened, ReadLoop.broadcast, ReadLoop.panic, hsent]

theorem not_panicked_reading (hr : r.state = .reading) : ¬ panicked r := by
  rintro ⟨p, hp⟩
  rw [hr] at hp
  cases hp

theorem readerHistory_reads (h : ReaderHistory s k stream r) (hr : r.state = .reading)
    {receiverAlive : Bool} (hread : r.Reads s receiverAlive t) : ReaderHistory s k stream t := by
  have halive := not_panicked_reading hr
  cases hread with
  | frame src frame parsed =>
    rcases handle_cases s receiverAlive { r with src := src } frame with ⟨message, k', hc⟩ | ⟨p, hp⟩
    · rw [handle_carries hc]
      exact readerHistory_dispatched h halive parsed hc receiverAlive
    · rw [hp]
      exact readerHistory_panic h src p
  | chunk src chunk chunks parsed next appended =>
    exact readerHistory_congr h rfl rfl rfl fun _ => ⟨halive, ReadLoop.unread_chunk next appended⟩
  | finished src empty ended kept =>
    exact readerHistory_congr h rfl rfl rfl fun _ => ⟨halive, ReadLoop.unread_finish kept⟩
  | broken src reason kept => exact readerHistory_panic h src _

def Owes (s : Session) (r : ReadLoop C) (given : List (ProtoMessage C.proto)) : Prop :=
  match r.state with
  | .answering response => answersDue s r = given ++ [response]
  | .panicked _ => given <+: answersDue s r
  | _ => answersDue s r = given

def Signals (r : ReadLoop C) : Prop :=
  match r.state with
  | .reading | .answering _ => r.cancellation = .waiting
  | .stopping | .stopped => r.cancellation = .sent "read loop finished"
  | .panicked _ => r.cancellation = .senderDropped

variable {given : List (ProtoMessage C.proto)}

theorem owes_due (h : Owes s r given) : given <+: answersDue s r := by
  unfold Owes at h
  split at h
  · exact h ▸ List.prefix_append _ _
  · exact h
  · exact h ▸ List.prefix_refl _

theorem owes_request {response : ProtoMessage C.proto} (h : Owes s r given)
    (hr : r.state = .answering response) :
    ∃ message ∈ messages r, s.api.dispatch message = .answer response := by
  rw [Owes, hr] at h
  have hdue : answersDue s r = given ++ [response] := h
  apply mem_filterMap_answer
  change response ∈ answersDue s r
  rw [hdue]
  simp

theorem owes_dispatched (h : answersDue s r = given) (hr : r.state = .reading) (frame : Bytes)
    (message : ProtoMessage C.proto) (k' : Option (CipherState C.aead)) (receiverAlive : Bool) :
    Owes s ((r.opened frame message k').dispatched s receiverAlive message) given := by
  have hdue : answersDue s (r.opened frame message k') = given ++ (s.api.dispatch message).answer?.toList := by
    rw [← h, answersDue, messages, ReadLoop.opened, List.map_append, List.map_singleton, filterMap_snoc]
    rfl
  unfold ReadLoop.dispatched
  cases hd : s.api.dispatch message with
  | answer response =>
    rw [hd] at hdue
    exact hdue
  | ignore =>
    simp only [hd, Dispatch.answer?, Option.toList_none, List.append_nil] at hdue
    rw [Owes, ReadLoop.opened, hr]
    exact hdue
  | forward m =>
    simp only [hd, Dispatch.answer?, Option.toList_none, List.append_nil] at hdue
    cases receiverAlive with
    | true =>
      simp only [ReadLoop.broadcast, ↓reduceIte, Owes, ReadLoop.opened, hr]
      exact hdue
    | false => exact hdue ▸ List.prefix_refl _

theorem owes_reads (h : Owes s r given) (hr : r.state = .reading) {receiverAlive : Bool}
    (hread : r.Reads s receiverAlive t) : Owes s t given := by
  have hdue : answersDue s r = given := by
    rw [Owes, hr] at h
    exact h
  cases hread with
  | frame src frame parsed =>
    rcases handle_cases s receiverAlive { r with src := src } frame with ⟨message, k', hc⟩ | ⟨p, hp⟩
    · rw [handle_carries hc]
      exact owes_dispatched (r := { r with src := src }) hdue hr frame message k' receiverAlive
    · rw [hp]
      exact hdue ▸ List.prefix_refl _
  | chunk src chunk chunks parsed next appended =>
    rw [Owes, hr]
    exact hdue
  | finished src empty ended kept => exact hdue
  | broken src reason kept => exact hdue ▸ List.prefix_refl _

theorem signals_panic (h : r.cancellation = .waiting) (p : Panic) : Signals (r.panic p) := by
  rw [Signals, ReadLoop.panic, h]
  rfl

theorem signals_alive (h : Signals r) (hr : ¬ panicked r) :
    r.cancellation = .waiting ∨ r.cancellation = .sent "read loop finished" := by
  unfold Signals at h
  split at h
  · exact .inl h
  · exact .inl h
  · exact .inr h
  · exact .inr h
  · rename_i p hp
    exact absurd ⟨p, hp⟩ hr

theorem signals_dispatched (h : r.cancellation = .waiting) (hr : r.state = .reading) (receiverAlive : Bool)
    (message : ProtoMessage C.proto) : Signals (r.dispatched s receiverAlive message) := by
  unfold ReadLoop.dispatched
  cases s.api.dispatch message with
  | answer response => exact h
  | ignore =>
    rw [Signals, hr]
    exact h
  | forward m =>
    cases receiverAlive with
    | true =>
      simp only [ReadLoop.broadcast, ↓reduceIte, Signals, hr]
      exact h
    | false => exact signals_panic h _

theorem signals_reads (h : Signals r) (hr : r.state = .reading) {receiverAlive : Bool}
    (hread : r.Reads s receiverAlive t) : Signals t := by
  have hwaiting : r.cancellation = .waiting := by
    rw [Signals, hr] at h
    exact h
  cases hread with
  | frame src frame parsed =>
    rcases handle_cases s receiverAlive { r with src := src } frame with ⟨message, k', hc⟩ | ⟨p, hp⟩
    · rw [handle_carries hc]
      exact signals_dispatched (r := ({ r with src := src } : ReadLoop C).opened frame message k')
        hwaiting hr receiverAlive message
    · rw [hp]
      exact signals_panic (r := { r with src := src }) hwaiting p
  | chunk src chunk chunks parsed next appended =>
    rw [Signals, hr]
    exact hwaiting
  | finished src empty ended kept => rfl
  | broken src reason kept => exact signals_panic (r := { r with src := src }) hwaiting _

end EsphomeNativeApi.ReadHistories
