import EsphomeNativeApi.Delivery
import EsphomeNativeApi.OutboundOrder

/-!
What is on the wire when the write loop has ended, and which answers it left behind.
-/

namespace EsphomeNativeApi.EndOfStream

open RustSemantics MessageTable FrameEncoding PacketEncrypted Start Channels Runs ReadLoops WriteLoops
open ClientTraffic Connection ReadHistories WriteHistories Histories OutboundOrder Applications Safety Delivery

variable {C : Crates} {s : Session} {e : Established C} {actions : List (Action C.proto)} {c d : State C}
  {received : List (ProtoMessage C.proto)}

def Written (C : Crates) (encrypted : Bool) (k : Option (CipherState C.aead)) (wire : Bytes)
    (messages : List (ProtoMessage C.proto)) : Prop :=
  ∃ packets k', Sealed C encrypted k messages packets k' ∧ wire = framesOf encrypted packets

def acceptedAnswers (c : State C) : List (ProtoMessage C.proto) := c.answers.accepted.map Prod.snd

/-- Why the write loop has ended. -/
inductive Exit (s : Session) (e : Established C) (received : List (ProtoMessage C.proto)) (c : State C) :
    Prop where
  | disconnected (stopped : c.writer.state = .stopped)
      (response : ∃ message ∈ taken c, isDisconnectResponse message = true)
  | cancelled (stopped : c.writer.state = .stopped)
      (signal : c.reader.cancellation = .sent "read loop finished")
  | unheard (unheard : Unheard s c.receiverAlive received c.reader) (quiet : Quiet (taken c))
      (written : Written C s.encrypted e.encryptCypher c.writer.wire (taken c))
  | deserted (empty : c.answers.queue = []) (finished : c.reader.state = .stopped) (quiet : Quiet (taken c))
      (written : Written C s.encrypted e.encryptCypher c.writer.wire (taken c))
  | refused (before : List (ProtoMessage C.proto)) (message : ProtoMessage C.proto)
      (last : taken c = before ++ [message]) (quiet : Quiet before)
      (written : Written C s.encrypted e.encryptCypher c.writer.wire before)
      (large : ¬ Encodable C s.encrypted message)

section Exits

theorem sealed_keyed {encrypted : Bool} {k k' : Option (CipherState C.aead)}
    {messages : List (ProtoMessage C.proto)} {packets : List Bytes}
    (h : Sealed C encrypted k messages packets k') (hk : encrypted = true → k.isSome) :
    encrypted = true → k'.isSome := by
  cases h with
  | none => exact hk
  | snoc before last => exact seals_keyed last

theorem finished_kept (hsignals : Signals c.reader) {action : Action C.proto} (ht : Transition s c action d)
    (hsent : c.reader.cancellation = .sent "read loop finished") :
    d.reader.cancellation = .sent "read loop finished" := by
  cases ht with
  | polled reader reading reads =>
    rw [Signals, reading, hsent] at hsignals
    cases hsignals
  | refused response answering ended =>
    rw [Signals, answering, hsent] at hsignals
    cases hsignals
  | _ => exact hsent

theorem stopped_kept {action : Action C.proto} (ht : Transition s c action d)
    (hstopped : c.reader.state = .stopped) : d.reader.state = .stopped := by
  cases ht with
  | polled reader reading reads => cases hstopped.symm.trans reading
  | answered response answering running room => cases hstopped.symm.trans answering
  | refused response answering ended => cases hstopped.symm.trans answering
  | finished stopping => rfl
  | _ => exact hstopped

theorem Exit.persists (h : Exit s e received c) (hsignals : Signals c.reader)
    (hended : c.writer.running = false) {action : Action C.proto} (ht : Transition s c action d) :
    Exit s e received d := by
  obtain ⟨hwriter, hanswers⟩ := ended_frame hended ht
  have htaken : taken d = taken c := by rw [taken, taken, hanswers]
  cases h with
  | disconnected stopped response => exact .disconnected (hwriter ▸ stopped) (htaken ▸ response)
  | cancelled stopped signal => exact .cancelled (hwriter ▸ stopped) (finished_kept hsignals ht signal)
  | unheard unheard quiet written =>
    apply Exit.unheard
    · exact unheard_kept ht unheard
    · exact htaken ▸ quiet
    · rw [hwriter, htaken]
      exact written
  | deserted empty finished quiet written =>
    apply Exit.deserted
    · exact hanswers ▸ empty
    · exact stopped_kept ht finished
    · exact htaken ▸ quiet
    · rw [hwriter, htaken]
      exact written
  | refused before message last quiet written large =>
    exact .refused before message (htaken.trans last) quiet (hwriter ▸ written) large

theorem exit_polled (hhistory : History s e actions c) (h : Reception s received c)
    (polling : c.writer.state = .pollCancellation)
    (hended : (c.writer.pollCancellation s c.reader.cancellation).running = false) :
    Exit s e received { c with writer := c.writer.pollCancellation s c.reader.cancellation } := by
  cases h with
  | reading reader =>
    rcases signals_alive hhistory.signals reader.alive with hwaiting | hsent
    · rw [hwaiting] at hended
      cases hended
    · rw [hsent]
      exact .cancelled rfl hsent
  | refused panicked ended request => simp [WriteLoop.running, polling] at ended
  | unheard unheard =>
    -- the sender of the cancellation went down with the read loop
    have hwriter := hhistory.writer
    rw [WriterHistory, polling] at hwriter
    obtain ⟨hquiet, packets, hsealed, hwire⟩ := hwriter
    have hsame : (c.writer.pollCancellation s c.reader.cancellation).wire = c.writer.wire := by
      unfold WriteLoop.pollCancellation
      cases c.reader.cancellation <;> rfl
    apply Exit.unheard
    · exact unheard
    · exact hquiet
    · exact ⟨packets, _, hsealed, hsame.trans hwire⟩

theorem exit_took (hC : C.Lawful) (hk : s.encrypted = true → e.encryptCypher.isSome)
    (hwriter : WriterHistory s.encrypted e.encryptCypher (taken c) c.writer)
    (polling : c.writer.state = .pollAnswers) {producer : Producer} {message : ProtoMessage C.proto}
    {answers : Mpsc (Producer × ProtoMessage C.proto)} (popped : c.answers.pop = some ((producer, message), answers))
    (hended : (c.writer.answer s message).running = false) :
    Exit s e received { c with answers := answers, writer := c.writer.answer s message } := by
  rw [WriterHistory, polling] at hwriter
  obtain ⟨hquiet, packets, hsealed, hwire⟩ := hwriter
  have hlarge : ¬ Encodable C s.encrypted message := by
    intro hencodable
    obtain ⟨pending, k', ha, -⟩ := answer_encodable hC (sealed_keyed hsealed hk) hencodable
    rw [ha] at hended
    cases hended
  have hsame : (c.writer.answer s message).wire = c.writer.wire := by
    unfold WriteLoop.answer
    cases sealAnswer C s.encrypted c.writer.encryptCypher message <;> rfl
  apply Exit.refused (taken c) message
  · exact (taken_pop popped).1
  · exact hquiet
  · exact ⟨packets, _, hsealed, hsame.trans hwire⟩
  · exact hlarge

theorem exit_wrote {k : Option (CipherState C.aead)} {message : ProtoMessage C.proto} {pending : Bytes}
    {count : ℕ} (hwriter : WriterHistory s.encrypted k (taken c) c.writer)
    (writing : c.writer.state = .writing message pending)
    (hended : (c.writer.write count message pending).running = false) :
    Exit s e received { c with writer := c.writer.write count message pending } := by
  have hm := mem_taken_of_writing hwriter writing
  unfold WriteLoop.write at hended ⊢
  by_cases hcount : pending.length ≤ count
  · by_cases hd : isDisconnectResponse message = true
    · exact .disconnected (by simp [hcount, hd]) ⟨message, hm, hd⟩
    · simp [hcount, hd, WriteLoop.running] at hended
  · simp [hcount, WriteLoop.running] at hended

theorem exit_step (hC : C.Lawful) (hk : s.encrypted = true → e.encryptCypher.isSome)
    (hhistory : History s e actions c) (hreception : Reception s received c)
    (h : c.writer.running = false → Exit s e received c) {action : Action C.proto}
    (ht : Transition s c action d) (hended : d.writer.running = false) : Exit s e received d := by
  by_cases hrunning : c.writer.running = false
  · exact (h hrunning).persists hhistory.signals hrunning ht
  · cases ht with
    | cancellationPolled count polling => exact exit_polled hhistory hreception polling hended
    | took count producer message answers polling popped =>
      exact exit_took hC hk hhistory.writer polling popped hended
    | idle count polling empty senders => cases hended
    | deserted count polling empty senders =>
      have hwriter := hhistory.writer
      rw [WriterHistory, polling] at hwriter
      obtain ⟨hquiet, packets, hsealed, hwire⟩ := hwriter
      cases hreception with
      | reading reader =>
        apply Exit.deserted
        · exact empty
        · exact ended_stopped reader.alive (Bool.or_eq_false_iff.mp senders).2
        · exact hquiet
        · exact ⟨packets, _, hsealed, hwire⟩
      | refused panicked ended request => exact absurd ended hrunning
      | unheard unheard => exact .unheard unheard hquiet ⟨packets, _, hsealed, hwire⟩
    | wrote count message pending writing => exact exit_wrote hhistory.writer writing hended
    | _ => exact absurd hended hrunning

theorem exit_run (hC : C.Lawful) (hk : s.encrypted = true → e.encryptCypher.isSome)
    (ht : Traffic C s.encrypted e.decryptCypher (e.src.data ++ e.incoming.flatten) received)
    (h : run (State.step s) (initial e) actions = some c) (hended : c.writer.running = false) :
    Exit s e received c := by
  revert hended
  apply run_history (fun _ u => u.writer.running = false → Exit s e received u) h
  · intro hended
    cases hended
  · intro past action u v hu hexit hv
    exact exit_step hC hk (history_run hC.proto hu) (reception_run hC.proto ht hu) hexit (step_cases hC.proto hv)

end Exits

section Answers

theorem queue_bounded (hP : C.proto.Lawful) (h : run (State.step s) (initial e) actions = some c) :
    c.answers.queue.length ≤ capacity := by
  apply run_invariant (fun u : State C => u.answers.queue.length ≤ capacity) h
  · exact Nat.zero_le _
  · intro action _ u v hu hv
    cases step_cases hP hv with
    | answered response answering running room => simpa [Mpsc.push, State.hasRoom] using room
    | took count producer message answers polling popped =>
      rw [(Mpsc.pop_some popped).1, List.length_cons] at hu
      exact (Nat.le_succ _).trans hu
    | sent task message alive running room => simpa [Mpsc.push, State.hasRoom] using room
    | _ => exact hu

/-- All answers are on the wire when the write loop has ended, unless the end of the read
loop overtook those in the queue or the codec refused one. -/
inductive AnswersAtExit (s : Session) (e : Established C) (received : List (ProtoMessage C.proto))
    (c : State C) : Prop where
  | written (all : Written C s.encrypted e.encryptCypher c.writer.wire (cutAfterDisconnect (acceptedAnswers c)))
      (disconnects : ∀ request ∈ messages c.reader, isDisconnectRequest request = true →
        ∃ response ∈ cutAfterDisconnect (acceptedAnswers c), isDisconnectResponse response = true)
  | overtaken (stopped : c.writer.state = .stopped)
      (signal : c.reader.cancellation = .sent "read loop finished") (ended : s.streamEnds = true)
      (handled : messages c.reader = received)
      (left : 0 < c.answers.queue.length ∧ c.answers.queue.length ≤ capacity) (quiet : Quiet (taken c))
      (written : Written C s.encrypted e.encryptCypher c.writer.wire (taken c))
  | unheard (unheard : Unheard s c.receiverAlive received c.reader)
      (left : c.answers.queue.length ≤ capacity) (quiet : Quiet (taken c))
      (written : Written C s.encrypted e.encryptCypher c.writer.wire (taken c))
  | refused (before : List (ProtoMessage C.proto)) (message : ProtoMessage C.proto)
      (last : taken c = before ++ [message]) (quiet : Quiet before)
      (written : Written C s.encrypted e.encryptCypher c.writer.wire before)
      (large : ¬ Encodable C s.encrypted message)

theorem stopped_written {k : Option (CipherState C.aead)} {encrypted : Bool}
    (h : WriterHistory encrypted k (taken c) c.writer) (hstopped : c.writer.state = .stopped)
    (hlast : c.answers.queue = [] ∨ ¬ Quiet (taken c)) :
    Written C encrypted k c.writer.wire (cutAfterDisconnect (acceptedAnswers c)) := by
  rw [WriterHistory, hstopped] at h
  obtain ⟨hquiet, packets, hsealed, hwire⟩ := h
  rw [acceptedAnswers, Mpsc.accepted, List.map_append, ← taken,
    cut_last _ _ hquiet (hlast.imp (fun hq => by rw [hq]; rfl) id)]
  exact ⟨packets, _, hsealed, hwire⟩

theorem accepted_disconnect (h : answersDue s c.reader = acceptedFrom c .readLoop)
    {request : ProtoMessage C.proto} (hm : request ∈ messages c.reader)
    (hd : isDisconnectRequest request = true) :
    ∃ response ∈ cutAfterDisconnect (acceptedAnswers c), isDisconnectResponse response = true := by
  have haccepted := mem_acceptedFrom_iff.mp (h ▸ disconnect_due (s := s) hm hd)
  exact cut_responds (List.mem_map_of_mem haccepted) rfl

theorem taken_disconnect {message : ProtoMessage C.proto} (hm : message ∈ taken c)
    (hd : isDisconnectResponse message = true) :
    ∃ response ∈ cutAfterDisconnect (acceptedAnswers c), isDisconnectResponse response = true := by
  obtain ⟨entry, he, rfl⟩ := List.mem_map.mp hm
  exact cut_responds (List.mem_map_of_mem (c.answers.taken_accepted.subset he)) hd

theorem owes_sent {r : ReadLoop C} {given : List (ProtoMessage C.proto)} (h : Owes s r given)
    (hsignals : Signals r) (hsent : r.cancellation = .sent "read loop finished") : answersDue s r = given := by
  unfold Signals at hsignals
  unfold Owes at h
  cases hstate : r.state with
  | reading => simpa [hstate] using h
  | answering response =>
    rw [hstate] at hsignals
    cases hsent.symm.trans hsignals
  | stopping => simpa [hstate] using h
  | stopped => simpa [hstate] using h
  | panicked p =>
    rw [hstate] at hsignals
    cases hsent.symm.trans hsignals

theorem answers_at_exit (C : Crates) (hC : C.Lawful) (s : Session) (e : Established C)
    (hk : s.encrypted = true → e.encryptCypher.isSome) (received : List (ProtoMessage C.proto))
    (ht : Traffic C s.encrypted e.decryptCypher (e.src.data ++ e.incoming.flatten) received)
    (actions : List (Action C.proto)) (c : State C) (h : run (State.step s) (initial e) actions = some c)
    (hended : c.writer.running = false) : AnswersAtExit s e received c := by
  have hhistory := history_run hC.proto h
  cases exit_run hC hk ht h hended with
  | disconnected stopped response =>
    obtain ⟨message, hm, hd⟩ := response
    have hloud : ¬ Quiet (taken c) := by
      intro hquiet
      simp [hquiet message hm] at hd
    apply AnswersAtExit.written
    · exact stopped_written hhistory.writer stopped (.inr hloud)
    · exact fun _ _ _ => taken_disconnect hm hd
  | cancelled stopped signal =>
    have howed := owes_sent hhistory.owes hhistory.signals signal
    by_cases hempty : c.answers.queue = []
    · apply AnswersAtExit.written
      · exact stopped_written hhistory.writer stopped (.inl hempty)
      · exact fun request hm hd => accepted_disconnect howed hm hd
    by_cases hquiet : Quiet (taken c)
    · -- the cancellation was polled before the answers that are still queued
      have halive : ¬ panicked c.reader := by
        rintro ⟨p, hp⟩
        have hsignals := hhistory.signals
        rw [Signals, hp, signal] at hsignals
        cases hsignals
      have hreading := (reception_run hC.proto ht h).reading_of_alive halive
      have hwriter := hhistory.writer
      rw [WriterHistory, stopped] at hwriter
      obtain ⟨-, packets, hsealed, hwire⟩ := hwriter
      apply AnswersAtExit.overtaken stopped signal
      · exact (hreading.ended signal).1
      · exact handled_all hreading signal
      · exact ⟨List.length_pos_iff.mpr hempty, queue_bounded hC.proto h⟩
      · exact hquiet
      · exact ⟨packets, _, hsealed, hwire⟩
    · apply AnswersAtExit.written
      · exact stopped_written hhistory.writer stopped (.inr hquiet)
      · exact fun request hm hd => accepted_disconnect howed hm hd
  | unheard unheard quiet written => exact .unheard unheard (queue_bounded hC.proto h) quiet written
  | deserted empty finished quiet written =>
    have hall : cutAfterDisconnect (acceptedAnswers c) = taken c := by
      rw [acceptedAnswers, Mpsc.accepted, List.map_append, ← taken, empty]
      exact cut_last _ _ (quiet_dropLast quiet) (.inl rfl)
    have howed := hhistory.owes
    rw [Owes, finished] at howed
    apply AnswersAtExit.written
    · exact hall ▸ written
    · exact fun request hm hd => accepted_disconnect howed hm hd
  | refused before message last quiet written large => exact .refused before message last quiet written large

theorem written_nil {encrypted : Bool} {k : Option (CipherState C.aead)}
    {messages : List (ProtoMessage C.proto)} (h : Written C encrypted k [] messages) : messages = [] := by
  obtain ⟨packets, k', hsealed, hwire⟩ := h
  cases hsealed with
  | none => rfl
  | @snoc messages packets k' message packet k'' before last =>
    rw [framesOf_snoc, eq_comm, List.append_eq_nil_iff] at hwire
    exact absurd hwire.2 (frameOf_ne_nil encrypted packet)

def lastRequest : Established tagCrates := ⟨false, .empty, [[0, 0, 5]], none, none⟩

def endedSession : Session := ⟨{ name := "test-device" }, false, true, false⟩

theorem lastRequest_traffic : Traffic tagCrates false none
    (lastRequest.src.data ++ lastRequest.incoming.flatten) [⟨.disconnectRequest, []⟩] :=
  traffic_emptyFrame 5 [] rfl (.done none)

theorem lastRequest_cancelled :
    ∃ c, run (State.step endedSession) (initial lastRequest) [.read, .read, .read, .read, .write 0] = some c ∧
      c.receiverAlive = true ∧ c.writer.running = false ∧ c.writer.wire = [] ∧
      (acceptedAnswers c).length = 1 :=
  run_check (by decide +kernel)

theorem cancelled_before_answer :
    ∃ c, Traffic tagCrates false none (lastRequest.src.data ++ lastRequest.incoming.flatten)
        [⟨.disconnectRequest, []⟩] ∧
      run (State.step endedSession) (initial lastRequest) [.read, .read, .read, .read, .write 0] = some c ∧
      c.receiverAlive = true ∧ c.writer.running = false ∧
      ¬ Written tagCrates false none c.writer.wire (cutAfterDisconnect (acceptedAnswers c)) := by
  obtain ⟨c, hrun, halive, hended, hwire, hone⟩ := lastRequest_cancelled
  refine ⟨c, lastRequest_traffic, hrun, halive, hended, ?_⟩
  intro hwritten
  rw [hwire] at hwritten
  obtain ⟨message, hmessage⟩ := List.length_eq_one_iff.mp hone
  have hnone := written_nil hwritten
  rw [hmessage, cutAfterDisconnect] at hnone
  split_ifs at hnone

theorem answers_at_exit_cancelled :
    ∃ c, run (State.step endedSession) (initial lastRequest) [.read, .read, .read, .read, .write 0] = some c ∧
      AnswersAtExit endedSession lastRequest [⟨.disconnectRequest, []⟩] c := by
  obtain ⟨c, hrun, -, hended, -⟩ := lastRequest_cancelled
  exact ⟨c, hrun, answers_at_exit tagCrates tagCrates_lawful endedSession lastRequest (by simp [endedSession]) _
    lastRequest_traffic _ c hrun hended⟩

end Answers

end EsphomeNativeApi.EndOfStream
