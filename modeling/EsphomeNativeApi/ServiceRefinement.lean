import EsphomeNativeApi.EndOfStream
import EsphomeNativeApi.Services
import EsphomeNativeApi.Simulations
import EsphomeNativeApi.StreamMessages

/-!
A connection is a service: each step of a task is none or one of the service's steps.
-/

namespace EsphomeNativeApi.ServiceRefinement

open RustSemantics MessageTable Frames FrameFormat FrameEncoding Framing PacketEncrypted Api Start
open Channels Runs ReadLoops WriteLoops ClientTraffic Connection ReadHistories WriteHistories Histories
open OutboundOrder EndOfStream StreamMessages Simulations Services

variable {C : Crates}

def duties {P : Proto} (api : EspHomeApi) : Duties (ProtoMessage P) where
  answer? message := (api.dispatch message).answer?
  forward? message := (api.dispatch message).forward?
  farewell := isDisconnectResponse

def origin? : Producer → Option ℕ
  | .readLoop => none
  | .application task => some task

abbrev Entry (P : Proto) := Option ℕ × ProtoMessage P

def entryOf {P : Proto} (entry : Producer × ProtoMessage P) : Entry P := (origin? entry.1, entry.2)

def sends {P : Proto} : Action P → List (ℕ × ProtoMessage P)
  | .send task message => [(task, message)]
  | _ => []

def dueOf {P : Proto} : ReadState P → List (ProtoMessage P)
  | .answering response => [response]
  | _ => []

/-- What the socket has taken in whole, of what the write loop took off the queue. -/
def Transmitted (encrypted : Bool) (k : Option (CipherState C.aead)) (taken : List (Entry C.proto))
    (w : WriteLoop C) (transmitted : List (Entry C.proto)) : Prop :=
  match w.state with
  | .pollCancellation | .pollAnswers | .stopped => transmitted = taken
  | .writing message _ => ∃ origin, taken = transmitted ++ [(origin, message)]
  | .panicked _ => transmitted <+: taken ∧ taken.length ≤ transmitted.length + 1 ∧
      Written C encrypted k w.wire (transmitted.map Prod.snd)

structure Shows (s : Session) (k : Option (CipherState C.aead)) (c : State C)
    (t : Service (ProtoMessage C.proto) ℕ) : Prop where
  handled : t.handled = messages c.reader
  inbox : ¬ panicked c.reader → t.inbox = carried C s.encrypted c.reader.decryptCypher c.reader.unread
  due : ¬ panicked c.reader → t.due = dueOf c.reader.state
  commands : c.reader.outgoing.sent <+: t.commands ∧
    (¬ panicked c.reader → c.reader.outgoing.sent = t.commands)
  accepted : t.accepted = c.answers.accepted.map entryOf
  writer : WriterHistory s.encrypted k (taken c) c.writer
  transmitted : Transmitted s.encrypted k (c.answers.taken.map entryOf) c.writer t.transmitted
  closed : t.closed = !c.writer.running

section Reader

variable {s : Session} {k : Option (CipherState C.aead)} {c : State C}
  {t : Service (ProtoMessage C.proto) ℕ}

theorem shows_panicked (h : Shows s k c t) (src : BytesMut) (p : Panic) :
    Shows s k { c with reader := ({ c.reader with src := src } : ReadLoop C).panic p } t where
  handled := h.handled
  inbox hn := absurd ⟨p, rfl⟩ hn
  due hn := absurd ⟨p, rfl⟩ hn
  commands := ⟨h.commands.1, fun hn => absurd ⟨p, rfl⟩ hn⟩
  accepted := h.accepted
  writer := h.writer
  transmitted := h.transmitted
  closed := h.closed

theorem shows_silent (h : Shows s k c t) (alive : ¬ panicked c.reader) {reader : ReadLoop C}
    (hhandled : reader.handled = c.reader.handled) (hk : reader.decryptCypher = c.reader.decryptCypher)
    (hunread : reader.unread = c.reader.unread) (hsent : reader.outgoing.sent = c.reader.outgoing.sent)
    (hdue : dueOf reader.state = dueOf c.reader.state) : Shows s k { c with reader := reader } t where
  handled := by rw [h.handled, messages, messages, hhandled]
  inbox _ := by rw [h.inbox alive, hk, hunread]
  due _ := by rw [h.due alive, hdue]
  commands := by rw [hsent]; exact ⟨h.commands.1, fun _ => h.commands.2 alive⟩
  accepted := h.accepted
  writer := h.writer
  transmitted := h.transmitted
  closed := h.closed

theorem shows_dispatched (h : Shows s k c t) (reading : c.reader.state = .reading) {src : BytesMut}
    {frame : Bytes} {message : ProtoMessage C.proto} {k' : Option (CipherState C.aead)}
    (parsed : parse s.encrypted c.reader.src.data = .frame frame src.data)
    (hc : Carries C s.encrypted c.reader.decryptCypher frame message k') :
    ∃ t', Takes (duties s.api) t .handle t' ∧ Shows s k { c with
      reader := (({ c.reader with src := src } : ReadLoop C).opened frame message k').dispatched s
        c.receiverAlive message } t' := by
  have halive := not_panicked_reading reading
  have hdue : t.due = [] := by rw [h.due halive, reading]; rfl
  have hinbox : t.inbox = message :: carried C s.encrypted k' (src.data ++ c.reader.incoming.flatten) := by
    rw [h.inbox halive, ReadLoop.unread]
    exact carried_frame parsed hc _
  have hsent := h.commands.2 halive
  have hhandled : t.handled ++ [message] = messages (({ c.reader with src := src } : ReadLoop C).opened frame message k') := by
    rw [h.handled, messages, messages, ReadLoop.opened, List.map_append]
    rfl
  refine ⟨_, .handled message _ hdue hinbox, ?_⟩
  unfold ReadLoop.dispatched
  cases hd : s.api.dispatch message with
  | answer response =>
    refine ⟨hhandled, fun _ => rfl, fun _ => ?_, ?_, h.accepted, h.writer, h.transmitted, h.closed⟩
    · simp [duties, hd, Dispatch.answer?, dueOf]
    · simp [duties, hd, Dispatch.forward?, ReadLoop.opened, hsent]
  | ignore =>
    refine ⟨hhandled, fun _ => rfl, fun _ => ?_, ?_, h.accepted, h.writer, h.transmitted, h.closed⟩
    · simp [duties, hd, Dispatch.answer?, dueOf, ReadLoop.opened, reading]
    · simp [duties, hd, Dispatch.forward?, ReadLoop.opened, hsent]
  | forward m =>
    cases c.receiverAlive with
    | true =>
      refine ⟨hhandled, fun _ => rfl, fun _ => ?_, ?_, h.accepted, h.writer, h.transmitted, h.closed⟩
      · simp [duties, hd, Dispatch.answer?, dueOf, ReadLoop.opened, ReadLoop.broadcast, reading]
      · simp [duties, hd, Dispatch.forward?, ReadLoop.opened, ReadLoop.broadcast, hsent]
    | false =>
      refine ⟨hhandled, fun hn => absurd ⟨_, rfl⟩ hn, fun hn => absurd ⟨_, rfl⟩ hn,
        ⟨?_, fun hn => absurd ⟨_, rfl⟩ hn⟩, h.accepted, h.writer, h.transmitted, h.closed⟩
      simp [ReadLoop.opened, ReadLoop.broadcast, ReadLoop.panic, hsent]

end Reader

section Writer

variable {s : Session} {k : Option (CipherState C.aead)} {c : State C}
  {t : Service (ProtoMessage C.proto) ℕ}

theorem shows_ended (h : Shows s k c t) {writer : WriteLoop C}
    (hhistory : WriterHistory s.encrypted k (taken c) writer)
    (htransmitted : Transmitted s.encrypted k (c.answers.taken.map entryOf) writer t.transmitted)
    (hended : writer.running = false) :
    Shows s k { c with writer := writer } { t with closed := true } where
  handled := h.handled
  inbox := h.inbox
  due := h.due
  commands := h.commands
  accepted := h.accepted
  writer := hhistory
  transmitted := htransmitted
  closed := by rw [hended]; rfl

theorem shows_polling (h : Shows s k c t)
    (polling : c.writer.state = .pollCancellation ∨ c.writer.state = .pollAnswers) :
    t.transmitted = c.answers.taken.map entryOf ∧ t.closed = false ∧
      Written C s.encrypted k c.writer.wire (t.transmitted.map Prod.snd) := by
  have htransmitted : t.transmitted = c.answers.taken.map entryOf := by
    have htransmitted := h.transmitted
    rcases polling with polling | polling <;>
    · rw [Transmitted, polling] at htransmitted
      exact htransmitted
  have hsame : t.transmitted.map Prod.snd = taken c := by
    rw [htransmitted, taken, List.map_map]
    rfl
  have hhistory := h.writer
  rw [hsame, h.closed]
  rcases polling with polling | polling <;>
  · rw [WriterHistory, polling] at hhistory
    obtain ⟨-, packets, hsealed, hwire⟩ := hhistory
    refine ⟨htransmitted, by rw [WriteLoop.running, polling]; rfl, packets, _, hsealed, hwire⟩

theorem shows_polled (h : Shows s k c t) (polling : c.writer.state = .pollCancellation) :
    ∃ closed, (closed = t.closed ∨ closed = true) ∧
      Shows s k { c with writer := c.writer.pollCancellation s c.reader.cancellation }
        { t with closed := closed } := by
  have hhistory := writerHistory_polled h.writer polling c.reader.cancellation
  obtain ⟨htransmitted, hrunning, hwritten⟩ := shows_polling h (.inl polling)
  cases hc : c.reader.cancellation with
  | waiting =>
    rw [hc] at hhistory
    exact ⟨t.closed, .inl rfl, h.handled, h.inbox, h.due, h.commands, h.accepted, hhistory, htransmitted, hrunning⟩
  | sent reason =>
    rw [hc] at hhistory
    exact ⟨true, .inr rfl, shows_ended h hhistory htransmitted rfl⟩
  | senderDropped =>
    rw [hc] at hhistory
    refine ⟨true, .inr rfl, shows_ended h hhistory ?_ ?_⟩
    · unfold WriteLoop.pollCancellation Transmitted
      cases s.debugEnabled with
      | false => exact htransmitted
      | true => exact ⟨htransmitted ▸ List.prefix_refl _, by rw [htransmitted]; omega, hwritten⟩
    · unfold WriteLoop.pollCancellation WriteLoop.running
      cases s.debugEnabled <;> rfl

theorem shows_took (hP : C.proto.Lawful) (h : Shows s k c t) (polling : c.writer.state = .pollAnswers)
    {producer : Producer} {message : ProtoMessage C.proto} {answers : Mpsc (Producer × ProtoMessage C.proto)}
    (popped : c.answers.pop = some ((producer, message), answers)) :
    ∃ closed, (closed = t.closed ∨ closed = true) ∧
      Shows s k { c with answers := answers, writer := c.writer.answer s message }
        { t with closed := closed } := by
  obtain ⟨htransmitted, hrunning, hwritten⟩ := shows_polling h (.inr polling)
  obtain ⟨-, htaken, haccepted⟩ := Mpsc.pop_some popped
  have hentries : answers.taken.map entryOf = t.transmitted ++ [(origin? producer, message)] := by
    rw [htaken, List.map_append, htransmitted]
    rfl
  have hhistory : WriterHistory s.encrypted k (answers.taken.map Prod.snd) (c.writer.answer s message) := by
    rw [(taken_pop popped).1]
    exact writerHistory_answer hP h.writer polling message
  have hsame : t.accepted = answers.accepted.map entryOf := by rw [h.accepted, haccepted]
  unfold WriteLoop.answer at hhistory ⊢
  cases hs : sealAnswer C s.encrypted c.writer.encryptCypher message with
  | error p =>
    rw [hs] at hhistory
    refine ⟨true, .inr rfl, h.handled, h.inbox, h.due, h.commands, hsame, hhistory, ?_, rfl⟩
    exact ⟨hentries ▸ List.prefix_append _ _, by rw [hentries]; simp, hwritten⟩
  | ok pending =>
    rw [hs] at hhistory
    exact ⟨t.closed, .inl rfl, h.handled, h.inbox, h.due, h.commands, hsame, hhistory, ⟨_, hentries⟩, hrunning⟩

theorem shows_wrote (h : Shows s k c t) (count : ℕ) {message : ProtoMessage C.proto} {pending : Bytes}
    (writing : c.writer.state = .writing message pending) :
    Shows s k { c with writer := c.writer.write count message pending } t ∨
      ∃ t', Takes (duties s.api) t .transmit t' ∧
        Shows s k { c with writer := c.writer.write count message pending } t' := by
  have hhistory := writerHistory_write h.writer count writing
  have htransmitted := h.transmitted
  rw [Transmitted, writing] at htransmitted
  obtain ⟨origin, hentries⟩ := htransmitted
  have hrunning : t.closed = false := by rw [h.closed, WriteLoop.running, writing]; rfl
  by_cases hcount : pending.length ≤ count
  · -- the last bytes of the frame
    have houtbox : t.outbox = (origin, message) :: c.answers.queue.map entryOf := by
      have haccepted := h.accepted
      rw [Service.accepted, Mpsc.accepted, List.map_append, hentries, List.append_assoc] at haccepted
      exact List.append_cancel_left haccepted
    refine .inr ⟨_, .transmitted _ _ hrunning houtbox, ?_⟩
    refine ⟨h.handled, h.inbox, h.due, h.commands, ?_, hhistory, ?_, ?_⟩
    · rw [← h.accepted, Service.accepted, Service.accepted, houtbox, List.append_assoc, List.singleton_append]
    · simp only [WriteLoop.write, hcount, ↓reduceIte, Transmitted]
      split_ifs <;> exact hentries.symm
    · simp only [WriteLoop.write, hcount, ↓reduceIte, WriteLoop.running, duties]
      cases isDisconnectResponse message <;> rfl
  · refine .inl ⟨h.handled, h.inbox, h.due, h.commands, h.accepted, hhistory, ?_, ?_⟩
    · simp only [WriteLoop.write, hcount, ↓reduceIte, Transmitted]
      exact ⟨origin, hentries⟩
    · simp only [WriteLoop.write, hcount, ↓reduceIte, WriteLoop.running, hrunning]
      rfl

end Writer

section Steps

variable {s : Session} {k : Option (CipherState C.aead)} {c d : State C}
  {t t' : Service (ProtoMessage C.proto) ℕ} {action : Action C.proto}

def Matched (s : Session) (k : Option (CipherState C.aead)) (t : Service (ProtoMessage C.proto) ℕ)
    (action : Action C.proto) (d : State C) : Prop :=
  ∃ events t', run (Service.step (duties s.api)) t events = some t' ∧
    events.flatMap posted = sends action ∧ Shows s k d t'

theorem matched_silently (h : Shows s k d t) (hsends : sends action = []) : Matched s k t action d :=
  ⟨[], t, rfl, hsends.symm, h⟩

theorem matched_by {event : Event (ProtoMessage C.proto) ℕ} (ht : Takes (duties s.api) t event t')
    (hposted : posted event = sends action) (h : Shows s k d t') : Matched s k t action d := by
  refine ⟨[event], t', ?_, ?_, h⟩
  · exact (run_cons_iff event []).mpr ⟨t', step_takes.mpr ht, rfl⟩
  · rw [List.flatMap_singleton, hposted]

theorem matched_closing (hsends : sends action = [])
    (h : ∃ closed, (closed = t.closed ∨ closed = true) ∧ Shows s k d { t with closed := closed }) :
    Matched s k t action d := by
  obtain ⟨closed, rfl | rfl, h⟩ := h
  · exact matched_silently h hsends
  · exact matched_by .closed hsends.symm h

theorem matched_reads (h : Shows s k c t) (reading : c.reader.state = .reading) {reader : ReadLoop C}
    (reads : c.reader.Reads s c.receiverAlive reader) : Matched s k t .read { c with reader := reader } := by
  have halive := not_panicked_reading reading
  cases reads with
  | frame src frame parsed =>
    rcases handle_cases s c.receiverAlive { c.reader with src := src } frame with ⟨message, k', hc⟩ | ⟨p, hp⟩
    · obtain ⟨t', htakes, hshows⟩ := shows_dispatched h reading parsed hc
      rw [handle_carries hc]
      exact matched_by htakes rfl hshows
    · rw [hp]
      exact matched_silently (shows_panicked h src p) rfl
  | chunk src chunk chunks parsed next appended =>
    exact matched_silently (shows_silent h halive rfl rfl (ReadLoop.unread_chunk next appended) rfl rfl) rfl
  | finished src empty ended kept =>
    have hdue : dueOf ({ c.reader with src := src } : ReadLoop C).finish.state = dueOf c.reader.state := by
      rw [reading]
      rfl
    exact matched_silently (shows_silent h halive rfl rfl (ReadLoop.unread_finish kept) rfl hdue) rfl
  | broken src reason kept => exact matched_silently (shows_panicked h src _) rfl

theorem matched_step (hP : C.proto.Lawful) (h : Shows s k c t) (ht : Transition s c action d) :
    Matched s k t action d := by
  cases ht with
  | polled reader reading reads => exact matched_reads h reading reads
  | answered response answering running room =>
    have halive : ¬ panicked c.reader := by simp [panicked, answering]
    have hdue : t.due = [response] := by rw [h.due halive, answering]; rfl
    have hrunning : t.closed = false := by rw [h.closed, running]; rfl
    apply matched_by (.accepted response [] hrunning hdue) rfl
    refine ⟨h.handled, fun _ => h.inbox halive, fun _ => rfl, ?_, ?_, h.writer, h.transmitted, hrunning.symm ▸ ?_⟩
    · exact ⟨h.commands.1, fun _ => h.commands.2 halive⟩
    · rw [Mpsc.accepted_push, List.map_append, ← h.accepted, Service.accepted, Service.accepted,
        List.append_assoc]
      rfl
    · rw [running]
      rfl
  | refused response answering ended => exact matched_silently (shows_panicked h c.reader.src _) rfl
  | finished stopping =>
    have halive : ¬ panicked c.reader := by simp [panicked, stopping]
    have hdue : dueOf (P := C.proto) .stopped = dueOf c.reader.state := by
      rw [stopping]
      rfl
    exact matched_silently (shows_silent h halive rfl rfl rfl rfl hdue) rfl
  | cancellationPolled count polling => exact matched_closing rfl (shows_polled h polling)
  | took count producer message answers polling popped =>
    exact matched_closing rfl (shows_took hP h polling popped)
  | idle count polling empty senders =>
    obtain ⟨htransmitted, hrunning, -⟩ := shows_polling h (.inr polling)
    have hhistory := h.writer
    rw [WriterHistory, polling] at hhistory
    exact matched_silently ⟨h.handled, h.inbox, h.due, h.commands, h.accepted, hhistory, htransmitted, hrunning⟩ rfl
  | deserted count polling empty senders =>
    obtain ⟨htransmitted, -, hwritten⟩ := shows_polling h (.inr polling)
    have hhistory := writer_step hP h.writer (.deserted count polling empty senders)
    apply matched_by .closed rfl
    refine shows_ended h hhistory ?_ rfl
    exact ⟨htransmitted ▸ List.prefix_refl _, by rw [htransmitted]; omega, hwritten⟩
  | wrote count message pending writing =>
    rcases shows_wrote h count writing with hshows | ⟨t', htakes, hshows⟩
    · exact matched_silently hshows rfl
    · exact matched_by htakes rfl hshows
  | sent task message alive running room =>
    have hrunning : t.closed = false := by rw [h.closed, running]; rfl
    apply matched_by (.posted task message hrunning) rfl
    refine ⟨h.handled, h.inbox, h.due, h.commands, ?_, h.writer, h.transmitted, hrunning.symm ▸ ?_⟩
    · rw [Mpsc.accepted_push, List.map_append, ← h.accepted, Service.accepted, Service.accepted,
        List.append_assoc]
      rfl
    · rw [running]
      rfl
  | received _ outgoing alive next =>
    apply matched_silently _ rfl
    refine ⟨h.handled, h.inbox, h.due, ?_, h.accepted, h.writer, h.transmitted, h.closed⟩
    change outgoing.sent <+: _ ∧ (_ → outgoing.sent = _)
    rw [Broadcast.receive_sent next]
    exact h.commands
  | receiverDropped =>
    exact matched_silently ⟨h.handled, h.inbox, h.due, h.commands, h.accepted, h.writer, h.transmitted, h.closed⟩ rfl
  | senderDropped =>
    exact matched_silently ⟨h.handled, h.inbox, h.due, h.commands, h.accepted, h.writer, h.transmitted, h.closed⟩ rfl

theorem connection_simulation (hP : C.proto.Lawful) (s : Session) (k : Option (CipherState C.aead)) :
    Simulation (State.step (C := C) s) (Service.step (duties s.api)) sends posted (Shows s k) where
  matched h ht := matched_step hP h (step_cases hP ht)

end Steps

section Wire

variable {s : Session} {k : Option (CipherState C.aead)} {c : State C}
  {t : Service (ProtoMessage C.proto) ℕ}

theorem written_reads (hC : C.Lawful) {encrypted : Bool} {wire : Bytes} {messages : List (ProtoMessage C.proto)}
    (h : Written C encrypted k wire messages) (hfits : ∀ message ∈ messages, Fits C encrypted message) :
    Reads C encrypted k wire messages [] := by
  obtain ⟨packets, k', hsealed, rfl⟩ := h
  apply reads_of_drain hC.proto (sealed_opens hC hsealed)
  rw [framesOf, drain_exact _ _ _ (sealed_frames hC.aead hsealed hfits)]

theorem partial_reads (hC : C.Lawful) {encrypted : Bool} {k' k'' : Option (CipherState C.aead)}
    {before : List (ProtoMessage C.proto)} {packets : List Bytes} {message : ProtoMessage C.proto}
    {packet done pending : Bytes} (hsealed : Sealed C encrypted k before packets k')
    (hlast : Seals C encrypted k' message packet k'') (hframe : frameOf encrypted packet = done ++ pending)
    (hne : pending ≠ []) (hbefore : ∀ m ∈ before, Fits C encrypted m) (hfits : Fits C encrypted message) :
    Reads C encrypted k (framesOf encrypted packets ++ done) before done := by
  have hparses := parse_isFrame (seals_isFrame hC.aead hlast hfits)
  rw [hframe] at hparses
  apply reads_of_drain hC.proto (sealed_opens hC hsealed)
  rw [framesOf, drain_encodings _ _ _ _ (sealed_frames hC.aead hsealed hbefore),
    drain_partial (decoder encrypted) hparses hne, List.append_nil]

theorem transmitted_reads (hC : C.Lawful) (h : Shows s k c t)
    (hfits : ∀ message ∈ taken c, Fits C s.encrypted message) :
    ∃ left, Reads C s.encrypted k c.writer.wire (t.transmitted.map Prod.snd) left := by
  have hhistory := h.writer
  have htransmitted := h.transmitted
  have hall : t.transmitted = c.answers.taken.map entryOf → t.transmitted.map Prod.snd = taken c := by
    intro hsame
    rw [hsame, taken, List.map_map]
    rfl
  unfold WriterHistory at hhistory
  unfold Transmitted at htransmitted
  split at hhistory
  · rename_i hw
    simp only [hw] at htransmitted
    rw [hall htransmitted]
    exact ⟨[], written_reads hC ⟨_, _, hhistory.2.choose_spec⟩ hfits⟩
  · rename_i hw
    simp only [hw] at htransmitted
    rw [hall htransmitted]
    exact ⟨[], written_reads hC ⟨_, _, hhistory.2.choose_spec⟩ hfits⟩
  · rename_i m pending hw
    simp only [hw] at htransmitted
    obtain ⟨origin, hentries⟩ := htransmitted
    obtain ⟨before, packets, packet, k', done, htaken, -, hsealed, hlast, hwire, hframe, hne⟩ := hhistory
    have hbefore : t.transmitted.map Prod.snd = before := by
      have hmap : (c.answers.taken.map entryOf).map Prod.snd = taken c := by
        rw [taken, List.map_map]
        rfl
      rw [hentries, htaken, List.map_append] at hmap
      exact List.append_cancel_right hmap
    rw [hbefore, hwire]
    exact ⟨done, partial_reads hC hsealed hlast hframe hne
      (fun message hm => hfits message (htaken ▸ List.mem_append_left _ hm))
      (hfits m (htaken ▸ List.mem_append_right _ (List.mem_singleton_self m)))⟩
  · rename_i hw
    simp only [hw] at htransmitted
    rw [hall htransmitted]
    exact ⟨[], written_reads hC ⟨_, _, hhistory.2.choose_spec⟩ hfits⟩
  · rename_i p hw
    simp only [hw] at htransmitted
    refine ⟨[], written_reads hC htransmitted.2.2 ?_⟩
    intro message hm
    apply hfits
    have hmap : (c.answers.taken.map entryOf).map Prod.snd = taken c := by
      rw [taken, List.map_map]
      rfl
    rw [← hmap]
    exact (htransmitted.1.map Prod.snd).subset hm

end Wire

theorem shows_initial (s : Session) (e : Established C) :
    Shows s e.encryptCypher (initial e)
      (.initial (carried C s.encrypted e.decryptCypher (e.src.data ++ e.incoming.flatten))) where
  handled := rfl
  inbox _ := rfl
  due _ := rfl
  commands := ⟨List.prefix_refl _, fun _ => rfl⟩
  accepted := rfl
  writer := history_initial.writer
  transmitted := rfl
  closed := rfl

theorem connection_refines (C : Crates) (hC : C.Lawful) (s : Session) (e : Established C)
    (actions : List (Action C.proto)) (c : State C) (h : run (State.step s) (initial e) actions = some c) :
    ∃ requests events t, requests = carried C s.encrypted e.decryptCypher (e.src.data ++ e.incoming.flatten) ∧
      run (Service.step (duties s.api)) (.initial requests) events = some t ∧
      events.flatMap posted = actions.flatMap sends ∧ Orderly (duties s.api) requests events t ∧
      t.handled = messages c.reader ∧ c.reader.outgoing.sent <+: t.commands ∧
      t.accepted = c.answers.accepted.map entryOf ∧ t.closed = !c.writer.running ∧
      ((∀ entry ∈ c.answers.accepted, Fits C s.encrypted entry.2) →
        ∃ left, Reads C s.encrypted e.encryptCypher c.writer.wire (t.transmitted.map Prod.snd) left) := by
  obtain ⟨events, t, ht, hshown, hshows, horderly⟩ :=
    (connection_simulation hC.proto s e.encryptCypher).history (shows_initial s e) h
      (Orderly (duties s.api) _) orderly_initial orderly_step
  refine ⟨_, events, t, rfl, ht, hshown, horderly, hshows.handled, hshows.commands.1, hshows.accepted,
    hshows.closed, fun hfits => ?_⟩
  apply transmitted_reads hC hshows
  intro message hm
  obtain ⟨entry, hentry, rfl⟩ := List.mem_map.mp hm
  exact hfits entry (c.answers.taken_accepted.subset hentry)

theorem connection_refines_disconnect_then_ping :
    ∃ c : State tagCrates, run (State.step encryptedSession) (initial encryptedStart) disconnectThenPing = some c ∧
    ∃ requests events t, requests = carried tagCrates true (some ⟨(), 0⟩) [] ∧
      run (Service.step (duties encryptedSession.api)) (.initial requests) events = some t ∧
      events.flatMap posted = disconnectThenPing.flatMap sends ∧
      Orderly (duties encryptedSession.api) requests events t ∧
      t.handled = messages c.reader ∧ c.reader.outgoing.sent <+: t.commands ∧
      t.accepted = c.answers.accepted.map entryOf ∧ t.closed = !c.writer.running ∧
      ∃ left, Reads tagCrates true (some ⟨(), 0⟩) c.writer.wire (t.transmitted.map Prod.snd) left := by
  refine ⟨_, rfl, ?_⟩
  obtain ⟨requests, events, t, hrequests, ht, hposted, horderly, hhandled, hcommands, haccepted, hclosed, hreads⟩ :=
    connection_refines tagCrates tagCrates_lawful encryptedSession encryptedStart disconnectThenPing _ rfl
  refine ⟨requests, events, t, hrequests, ht, hposted, horderly, hhandled, hcommands, haccepted, hclosed, ?_⟩
  exact hreads (List.forall_mem_cons.mpr
    ⟨emptyMessage_fits _, List.forall_mem_cons.mpr ⟨emptyMessage_fits _, List.forall_mem_nil _⟩⟩)

end EsphomeNativeApi.ServiceRefinement
