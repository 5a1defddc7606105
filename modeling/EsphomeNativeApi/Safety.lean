import EsphomeNativeApi.Applications

/-!
A harmless application and client: no order of steps crashes the connection.
-/

namespace EsphomeNativeApi.Safety

open RustSemantics MessageTable Frames FrameFormat FrameEncoding Framing PacketEncrypted Api Start
open Channels Runs ReadLoops WriteLoops ClientTraffic Connection ReadHistories WriteHistories Histories
open Applications

variable {C : Crates}

structure Reading (s : Session) (received : List (ProtoMessage C.proto)) (r : ReadLoop C) : Prop where
  alive : ¬ panicked r
  rest : ∃ rest, Traffic C s.encrypted r.decryptCypher r.unread rest ∧ received = messages r ++ rest
  ended : r.cancellation = .sent "read loop finished" → s.streamEnds = true ∧ r.unread = []

structure Safe (s : Session) (a : Application C.proto) (received : List (ProtoMessage C.proto))
    (c : State C) : Prop where
  reader : Reading s received c.reader
  writer : ∀ p, c.writer.state ≠ .panicked p
  stopped : c.writer.state = .stopped → c.reader.cancellation = .sent "read loop finished" ∨
    ∃ message ∈ taken c, isDisconnectResponse message = true
  sends : ∀ task message, (.application task, message) ∈ c.answers.accepted → a.sends message
  receiver : c.receiverAlive = false → a.dropsReceiver = true
  sender : c.senderAlive = false → a.dropsSender = true
  keyed : s.encrypted = true → c.writer.encryptCypher.isSome

section Safety

variable {s : Session} {e : Established C} {a : Application C.proto}
  {received : List (ProtoMessage C.proto)} {actions : List (Action C.proto)} {c d : State C}

theorem handled_received {r : ReadLoop C} (h : Reading s received r) {message : ProtoMessage C.proto}
    (hm : message ∈ messages r) : message ∈ received := by
  obtain ⟨rest, -, hsplit⟩ := h.rest
  rw [hsplit]
  exact List.mem_append_left _ hm

theorem handled_all {r : ReadLoop C} (h : Reading s received r)
    (hsent : r.cancellation = .sent "read loop finished") : messages r = received := by
  obtain ⟨rest, htraffic, hreceived⟩ := h.rest
  rw [(h.ended hsent).2] at htraffic
  rw [hreceived, traffic_nil htraffic, List.append_nil]

theorem mem_acceptedFrom {producer : Producer} {message : ProtoMessage C.proto}
    (h : (producer, message) ∈ c.answers.accepted) : message ∈ acceptedFrom c producer :=
  List.mem_filterMap.mpr ⟨_, h, by simp [from?]⟩

theorem accepted_encodable (hh : Harmless s a received) (h : Safe s a received c)
    (hhistory : History s e actions c) {entry : Producer × ProtoMessage C.proto}
    (hm : entry ∈ c.answers.accepted) : Encodable C s.encrypted entry.2 := by
  obtain ⟨producer, message⟩ := entry
  cases producer with
  | readLoop =>
    have hdue := (owes_due hhistory.owes).subset (mem_acceptedFrom hm)
    obtain ⟨request, hrequest, hanswer⟩ := mem_filterMap_answer hdue
    exact hh.answers_encodable request (handled_received h.reader hrequest) message hanswer
  | application task => exact hh.sends_encodable message (h.sends task message hm)

theorem answering_quiet (hh : Harmless s a received) (h : Safe s a received c)
    (hhistory : History s e actions c) {response : ProtoMessage C.proto}
    (answering : c.reader.state = .answering response) :
    ∀ entry ∈ c.answers.accepted, isDisconnectResponse entry.2 = false := by
  -- the answer that waits for room is the last of those called for
  have howes := hhistory.owes
  rw [Owes, answering] at howes
  have howes : answersDue s c.reader = acceptedFrom c .readLoop ++ [response] := howes
  obtain ⟨request, hrequest, hanswer⟩ := owes_request hhistory.owes answering
  intro entry hm
  by_contra hd
  rw [Bool.not_eq_false] at hd
  obtain ⟨producer, message⟩ := entry
  cases producer with
  | application task =>
    exact hh.disconnects message (h.sends task message hm) hd request (handled_received h.reader hrequest)
      ⟨response, hanswer⟩
  | readLoop =>
    obtain ⟨earlier, later, hsplit, hearlier, hlater⟩ := List.filterMap_eq_append_iff.mp howes
    obtain ⟨d, hd', hdanswer⟩ := mem_filterMap_answer (hearlier ▸ mem_acceptedFrom hm)
    obtain ⟨r, hr, hranswer⟩ := mem_filterMap_answer (hlater ▸ List.mem_singleton_self response)
    have hrequest : isDisconnectRequest d = true := by
      have hkind := dispatch_disconnect s.api hdanswer
      simp only [isDisconnectResponse, isDisconnectRequest, decide_eq_true_eq] at hd ⊢
      exact hkind.mp hd
    obtain ⟨rest, -, hreceived⟩ := h.reader.rest
    have hafter := hh.after_disconnect
    rw [hreceived, hsplit, List.append_assoc] at hafter
    have hlast := (List.pairwise_append.mp hafter).2.2 d hd' r (List.mem_append_left _ hr)
    exact hlast hrequest ⟨response, hranswer⟩

theorem mem_acceptedFrom_iff {producer : Producer} {message : ProtoMessage C.proto} :
    message ∈ acceptedFrom c producer ↔ (producer, message) ∈ c.answers.accepted := by
  constructor
  · intro h
    obtain ⟨⟨by', m⟩, hm, hfrom⟩ := List.mem_filterMap.mp h
    unfold from? at hfrom
    split_ifs at hfrom with hp
    cases hfrom
    exact hp ▸ hm
  · exact mem_acceptedFrom

theorem Safe.stopped_of_ended (h : Safe s a received c) (hended : c.writer.running = false) :
    c.writer.state = .stopped := by
  unfold WriteLoop.running at hended
  split at hended
  · assumption
  · rename_i p hp
    exact absurd hp (h.writer p)
  · cases hended

theorem not_refused (hh : Harmless s a received) (h : Safe s a received c)
    (hhistory : History s e actions c) {response : ProtoMessage C.proto}
    (answering : c.reader.state = .answering response) : c.writer.running = true := by
  by_contra hended
  rw [Bool.not_eq_true] at hended
  rcases h.stopped (h.stopped_of_ended hended) with hcancelled | ⟨message, hm, hd⟩
  · have hsignals := hhistory.signals
    rw [Signals, answering] at hsignals
    rw [hcancelled] at hsignals
    cases hsignals
  · obtain ⟨entry, he, rfl⟩ := List.mem_map.mp hm
    rw [answering_quiet hh h hhistory answering entry (c.answers.taken_accepted.subset he)] at hd
    cases hd

theorem disconnect_due {r : ReadLoop C} {request : ProtoMessage C.proto} (hm : request ∈ messages r)
    (hd : isDisconnectRequest request = true) :
    (⟨.disconnectResponse, C.proto.disconnectResponse⟩ : ProtoMessage C.proto) ∈ answersDue s r := by
  apply List.mem_filterMap.mpr
  refine ⟨request, hm, ?_⟩
  rw [dispatch_disconnectRequest s.api (of_decide_eq_true hd)]
  rfl

theorem ended_stopped {r : ReadLoop C} (halive : ¬ panicked r) (hended : readerHoldsSender r = false) :
    r.state = .stopped := by
  unfold readerHoldsSender at hended
  split at hended
  · assumption
  · rename_i p hp
    exact absurd ⟨p, hp⟩ halive
  · cases hended

theorem not_deserted (hh : Harmless s a received) (h : Safe s a received c)
    (hhistory : History s e actions c) (polling : c.writer.state = .pollAnswers)
    (empty : c.answers.queue = []) : (c.senderAlive || readerHoldsSender c.reader) = true := by
  -- otherwise the read loop has ended, and the answer to a `DisconnectRequest` was taken before
  by_contra hsenders
  rw [Bool.not_eq_true, Bool.or_eq_false_iff] at hsenders
  obtain ⟨halive, hholds⟩ := hsenders
  have hstopped := ended_stopped h.reader.alive hholds
  have hsignals := hhistory.signals
  have howes := hhistory.owes
  have hwriter := hhistory.writer
  rw [Signals, hstopped] at hsignals
  rw [Owes, hstopped] at howes
  rw [WriterHistory, polling] at hwriter
  have hreceived := handled_all h.reader hsignals
  have hends := (h.reader.ended hsignals).1
  obtain ⟨request, hm, hd⟩ := hh.sender (h.sender halive) hends
  have hdue := disconnect_due (s := s) (r := c.reader) (hreceived.symm ▸ hm) hd
  have haccepted := mem_acceptedFrom_iff.mp (howes ▸ hdue)
  rw [Mpsc.accepted, empty, List.append_nil] at haccepted
  have hquiet := hwriter.1 _ (List.mem_map_of_mem haccepted)
  simp [isDisconnectResponse] at hquiet

/-- The read loop panicked at a message that it had to forward and that no receiver was left for. -/
structure Unheard (s : Session) (receiverAlive : Bool) (received : List (ProtoMessage C.proto))
    (r : ReadLoop C) : Prop where
  panicked : panicked r
  dropped : receiverAlive = false
  last : ∃ before message after, received = before ++ message :: after ∧ messages r = before ++ [message] ∧
    Forwarded s message

theorem reading_dispatched {r : ReadLoop C} {receiverAlive : Bool} {message : ProtoMessage C.proto}
    {more : List (ProtoMessage C.proto)} (hreading : r.state = .reading) (hwaiting : r.cancellation = .waiting)
    (htraffic : Traffic C s.encrypted r.decryptCypher r.unread more) (hreceived : received = messages r ++ more)
    {before : List (ProtoMessage C.proto)} (hlast : messages r = before ++ [message]) :
    Reading s received (r.dispatched s receiverAlive message) ∨
      Unheard s receiverAlive received (r.dispatched s receiverAlive message) := by
  by_cases hdead : receiverAlive = false ∧ Forwarded s message
  · obtain ⟨hdead, forwarded, hf⟩ := hdead
    rw [ReadLoop.dispatched_panics hf hdead]
    refine .inr ⟨⟨_, rfl⟩, hdead, before, message, more, ?_, hlast, forwarded, hf⟩
    rw [hreceived, hlast, List.append_assoc]
    rfl
  · obtain ⟨hsrc, hincoming, hk, hhandled, hcancel, hstate⟩ := ReadLoop.dispatched_fields
      (s := s) receiverAlive r message fun hd forwarded hf => hdead ⟨hd, forwarded, hf⟩
    apply Or.inl
    refine ⟨?_, ⟨more, ?_, ?_⟩, ?_⟩
    · rintro ⟨p, hp⟩
      rcases hstate with hs | ⟨response, -, hs⟩
      · rw [hs, hreading] at hp
        cases hp
      · rw [hs] at hp
        cases hp
    · rw [ReadLoop.unread, hsrc, hincoming, hk]
      exact htraffic
    · rw [messages, hhandled]
      exact hreceived
    · intro hsent
      rw [hcancel, hwaiting] at hsent
      cases hsent

theorem reading_reads {r t : ReadLoop C} {receiverAlive : Bool} (h : Reading s received r)
    (hreading : r.state = .reading) (hwaiting : r.cancellation = .waiting)
    (hread : r.Reads s receiverAlive t) :
    Reading s received t ∨ Unheard s receiverAlive received t := by
  obtain ⟨rest, htraffic, hreceived⟩ := h.rest
  cases hread with
  | frame src frame parsed =>
    obtain ⟨message, k, more, rfl, hc, hmore⟩ := traffic_frame htraffic parsed
    rw [handle_carries (r := { r with src := src }) hc]
    have hhandled : messages (({ r with src := src } : ReadLoop C).opened frame message k) =
        messages r ++ [message] := by simp [ReadLoop.opened, messages]
    refine reading_dispatched hreading hwaiting hmore ?_ hhandled
    rw [hreceived, hhandled, List.append_assoc]
    rfl
  | chunk src chunk chunks parsed next appended =>
    have hunread := ReadLoop.unread_chunk next appended
    refine .inl ⟨h.alive, ⟨rest, by rw [hunread]; exact htraffic, hreceived⟩, ?_⟩
    intro hsent
    have hsent : r.cancellation = _ := hsent
    rw [hwaiting] at hsent
    cases hsent
  | finished src empty ended kept =>
    have hunread := ReadLoop.unread_finish kept
    exact .inl ⟨by simp [panicked, ReadLoop.finish], ⟨rest, by rw [hunread]; exact htraffic, hreceived⟩,
      fun _ => ⟨ended, hunread.trans empty⟩⟩
  | broken src reason kept =>
    rcases reason with ⟨e, hp⟩ | ⟨hp, hi, -, hne⟩
    · exact absurd hp (traffic_not_fail htraffic e)
    · rw [ReadLoop.unread, hi, List.flatten_nil, List.append_nil] at htraffic
      exact absurd (traffic_incomplete htraffic hp) hne

theorem seals_keyed {encrypted : Bool} {k k' : Option (CipherState C.aead)}
    {message : ProtoMessage C.proto} {packet : Bytes} (h : Seals C encrypted k message packet k') :
    encrypted = true → k'.isSome := by
  cases h with
  | plaintext _ _ short => exact fun h => nomatch h
  | encrypted key n _ short => exact fun _ => rfl

theorem answer_encodable (hC : C.Lawful) {w : WriteLoop C} (hk : s.encrypted = true → w.encryptCypher.isSome)
    {message : ProtoMessage C.proto} (h : Encodable C s.encrypted message) :
    ∃ pending k', w.answer s message =
      { w with state := .writing message pending, encryptCypher := k' } ∧ (s.encrypted = true → k'.isSome) := by
  obtain ⟨packet, k', hs⟩ := encodable_seals hC.aead hk h
  have ha := (sealAnswer_ok_iff hC.proto _ _ _ _ _).mpr ⟨packet, hs, rfl⟩
  exact ⟨_, k', by rw [WriteLoop.answer, ha], seals_keyed hs⟩

theorem safe_step (hC : C.Lawful) (hh : Harmless s a received) (h : Safe s a received c)
    (hhistory : History s e actions c) {action : Action C.proto} (hallowed : a.Allows action)
    (ht : Transition s c action d) : Safe s a received d := by
  cases ht with
  | polled reader reading reads =>
    have hwaiting := hhistory.signals
    rw [Signals, reading] at hwaiting
    have hreader : Reading s received reader := by
      rcases reading_reads h.reader reading hwaiting reads with hreader | hunheard
      · exact hreader
      · obtain ⟨before, message, after, hsplit, -, hf⟩ := hunheard.last
        exact absurd hf (hh.receiver (h.receiver hunheard.dropped) message (by simp [hsplit]))
    refine ⟨hreader, h.writer, fun hstopped => ?_, h.sends, h.receiver, h.sender, h.keyed⟩
    rcases h.stopped hstopped with hsent | hd
    · rw [hsent] at hwaiting
      cases hwaiting
    · exact .inr hd
  | answered response answering running room =>
    refine ⟨⟨by simp [panicked], h.reader.rest, h.reader.ended⟩, h.writer, h.stopped, ?_, h.receiver,
      h.sender, h.keyed⟩
    intro task message hm
    rw [Mpsc.accepted_push, List.mem_append] at hm
    rcases hm with hm | hm
    · exact h.sends task message hm
    · simp at hm
  | refused response answering ended =>
    rw [not_refused hh h hhistory answering] at ended
    cases ended
  | finished stopping =>
    exact ⟨⟨by simp [panicked], h.reader.rest, h.reader.ended⟩, h.writer, h.stopped, h.sends, h.receiver,
      h.sender, h.keyed⟩
  | cancellationPolled count polling =>
    unfold WriteLoop.pollCancellation
    rcases signals_alive hhistory.signals h.reader.alive with hcancel | hcancel
    · rw [hcancel]
      exact ⟨h.reader, by simp, by simp, h.sends, h.receiver, h.sender, h.keyed⟩
    · rw [hcancel]
      exact ⟨h.reader, by simp, fun _ => .inl hcancel, h.sends, h.receiver, h.sender, h.keyed⟩
  | took count producer message answers polling popped =>
    obtain ⟨-, haccepted⟩ := taken_pop popped
    have hm : (producer, message) ∈ c.answers.accepted := by
      rw [Mpsc.accepted, (Mpsc.pop_some popped).1]
      simp
    obtain ⟨pending, k', ha, hk⟩ := answer_encodable hC h.keyed (accepted_encodable hh h hhistory hm)
    rw [ha]
    exact ⟨h.reader, by simp, by simp, haccepted ▸ h.sends, h.receiver, h.sender, hk⟩
  | idle count polling empty senders =>
    exact ⟨h.reader, by simp, by simp, h.sends, h.receiver, h.sender, h.keyed⟩
  | deserted count polling empty senders =>
    rw [not_deserted hh h hhistory polling empty] at senders
    cases senders
  | wrote count message pending writing =>
    have hm := mem_taken_of_writing hhistory.writer writing
    unfold WriteLoop.write
    split_ifs with hcount hd
    · exact ⟨h.reader, by simp, fun _ => .inr ⟨message, hm, hd⟩, h.sends, h.receiver, h.sender, h.keyed⟩
    · exact ⟨h.reader, by simp, by simp, h.sends, h.receiver, h.sender, h.keyed⟩
    · exact ⟨h.reader, by simp, by simp, h.sends, h.receiver, h.sender, h.keyed⟩
  | sent t message alive running room =>
    refine ⟨h.reader, h.writer, h.stopped, ?_, h.receiver, h.sender, h.keyed⟩
    intro task m hm
    rw [Mpsc.accepted_push, List.mem_append] at hm
    rcases hm with hm | hm
    · exact h.sends task m hm
    · simp only [List.mem_singleton, Prod.mk.injEq] at hm
      exact hm.2 ▸ hallowed
  | received _ outgoing alive next =>
    exact ⟨⟨h.reader.alive, h.reader.rest, h.reader.ended⟩, h.writer, h.stopped, h.sends, h.receiver,
      h.sender, h.keyed⟩
  | receiverDropped =>
    exact ⟨h.reader, h.writer, h.stopped, h.sends, fun _ => hallowed, h.sender, h.keyed⟩
  | senderDropped =>
    exact ⟨h.reader, h.writer, h.stopped, h.sends, h.receiver, fun _ => hallowed, h.keyed⟩

theorem reading_initial
    (ht : Traffic C s.encrypted e.decryptCypher (e.src.data ++ e.incoming.flatten) received) :
    Reading s received (initial e).reader :=
  ⟨by simp [panicked, initial, ReadLoop.new], ⟨received, ht, rfl⟩, fun h => nomatch h⟩

theorem safe_initial (hk : s.encrypted = true → e.encryptCypher.isSome)
    (ht : Traffic C s.encrypted e.decryptCypher (e.src.data ++ e.incoming.flatten) received) :
    Safe s a received (initial e) where
  reader := reading_initial ht
  writer _ h := nomatch h
  stopped h := nomatch h
  sends _ _ h := nomatch h
  receiver h := nomatch h
  sender h := nomatch h
  keyed := hk

theorem safe_run (hC : C.Lawful) (hk : s.encrypted = true → e.encryptCypher.isSome)
    (ht : Traffic C s.encrypted e.decryptCypher (e.src.data ++ e.incoming.flatten) received)
    (hh : Harmless s a received) (h : Reached s e a c) :
    Safe s a received c ∧ ∃ actions, History s e actions c := by
  obtain ⟨actions, hallowed, hrun⟩ := h
  have hsafe : (∀ action ∈ actions, a.Allows action) → Safe s a received c := by
    apply run_history (fun past u => (∀ action ∈ past, a.Allows action) → Safe s a received u) hrun
    · exact fun _ => safe_initial hk ht
    · intro past action u v hu hpast hv hall
      have hsafe := hpast fun b hb => hall b (List.mem_append_left _ hb)
      exact safe_step hC hh hsafe (history_run hC.proto hu) (hall action (by simp)) (step_cases hC.proto hv)
  exact ⟨hsafe hallowed, actions, history_run hC.proto hrun⟩

theorem crash_free_of_harmless (hC : C.Lawful) (hk : s.encrypted = true → e.encryptCypher.isSome)
    (ht : Traffic C s.encrypted e.decryptCypher (e.src.data ++ e.incoming.flatten) received)
    (hh : Harmless s a received) : CrashFree s e a := by
  intro c hc
  have hsafe := (safe_run hC hk ht hh hc).1
  rintro (hp | ⟨p, hp⟩)
  · exact hsafe.reader.alive hp
  · exact hsafe.writer p hp

end Safety

end EsphomeNativeApi.Safety
