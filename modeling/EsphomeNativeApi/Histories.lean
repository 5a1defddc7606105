import EsphomeNativeApi.Connection
import EsphomeNativeApi.ReadHistories
import EsphomeNativeApi.WriteHistories

/-!
The histories of both loops and of the answer queue, in every state of a connection.
-/

namespace EsphomeNativeApi.Histories

open RustSemantics MessageTable PacketEncrypted Start Channels Runs ReadLoops WriteLoops Connection
open ReadHistories WriteHistories

variable {C : Crates}

def from? (producer : Producer) (entry : Producer × ProtoMessage C.proto) : Option (ProtoMessage C.proto) :=
  if entry.1 = producer then some entry.2 else none

def acceptedFrom (c : State C) (producer : Producer) : List (ProtoMessage C.proto) :=
  c.answers.accepted.filterMap (from? producer)

def taken (c : State C) : List (ProtoMessage C.proto) := c.answers.taken.map Prod.snd

def sendsOf (task : ℕ) (actions : List (Action C.proto)) : List (ProtoMessage C.proto) :=
  actions.filterMap fun action =>
    match action with
    | .send t message => if t = task then some message else none
    | _ => none

structure History (s : Session) (e : Established C) (actions : List (Action C.proto)) (c : State C) :
    Prop where
  reader : ReaderHistory s e.decryptCypher (e.src.data ++ e.incoming.flatten) c.reader
  owes : Owes s c.reader (acceptedFrom c .readLoop)
  signals : Signals c.reader
  writer : WriterHistory s.encrypted e.encryptCypher (taken c) c.writer
  sends : ∀ task, acceptedFrom c (.application task) = sendsOf task actions

variable {s : Session} {e : Established C} {actions : List (Action C.proto)} {c d : State C}

theorem history_initial : History s e [] (initial e) where
  reader := readerHistory_new e.src e.incoming
  owes := rfl
  signals := rfl
  writer := ⟨List.forall_mem_nil _, [], .none, rfl⟩
  sends _ := rfl

theorem acceptedFrom_push (answers : Mpsc (Producer × ProtoMessage C.proto)) (producer by' : Producer)
    (message : ProtoMessage C.proto) :
    (answers.push (by', message)).accepted.filterMap (from? producer) =
      answers.accepted.filterMap (from? producer) ++ (if by' = producer then [message] else []) := by
  rw [Mpsc.accepted_push, filterMap_snoc, from?]
  split_ifs <;> rfl

theorem sendsOf_snoc (task : ℕ) (actions : List (Action C.proto)) (action : Action C.proto)
    (h : ∀ message, action ≠ .send task message) :
    sendsOf task (actions ++ [action]) = sendsOf task actions := by
  rw [sendsOf, filterMap_snoc, sendsOf]
  cases action with
  | send t message =>
    have ht : t ≠ task := fun ht => h message (ht ▸ rfl)
    simp [ht]
  | read => simp
  | write count => simp
  | receive => simp
  | dropReceiver => simp
  | dropSender => simp

theorem sendsOf_send (task t : ℕ) (actions : List (Action C.proto)) (message : ProtoMessage C.proto) :
    sendsOf task (actions ++ [.send t message]) =
      sendsOf task actions ++ if t = task then [message] else [] := by
  rw [sendsOf, filterMap_snoc, sendsOf]
  split_ifs with ht <;> simp [ht]

theorem taken_pop {answers : Mpsc (Producer × ProtoMessage C.proto)} {producer : Producer}
    {message : ProtoMessage C.proto} (h : c.answers.pop = some ((producer, message), answers)) :
    answers.taken.map Prod.snd = taken c ++ [message] ∧ answers.accepted = c.answers.accepted := by
  obtain ⟨-, ht, ha⟩ := Mpsc.pop_some h
  exact ⟨by rw [ht, List.map_append]; rfl, ha⟩

theorem reader_step {k : Option (CipherState C.aead)} {stream : Bytes} {action : Action C.proto}
    (h : ReaderHistory s k stream c.reader) (ht : Transition s c action d) :
    ReaderHistory s k stream d.reader := by
  cases ht with
  | polled reader reading reads => exact readerHistory_reads h reading reads
  | answered response answering running room =>
    exact readerHistory_congr h rfl rfl rfl fun _ => ⟨by simp [panicked, answering], rfl⟩
  | refused response answering ended => exact readerHistory_panic h c.reader.src _
  | finished stopping => exact readerHistory_congr h rfl rfl rfl fun _ => ⟨by simp [panicked, stopping], rfl⟩
  | received _ outgoing alive next =>
    exact readerHistory_congr h rfl rfl (Broadcast.receive_sent next) fun hn => ⟨hn, rfl⟩
  | _ => exact h

theorem owes_step {action : Action C.proto} (h : Owes s c.reader (acceptedFrom c .readLoop))
    (ht : Transition s c action d) : Owes s d.reader (acceptedFrom d .readLoop) := by
  cases ht with
  | polled reader reading reads => exact owes_reads h reading reads
  | answered response answering running room =>
    rw [Owes, answering] at h
    rw [Owes, acceptedFrom, acceptedFrom_push, if_pos rfl]
    exact h
  | refused response answering ended =>
    rw [Owes, answering] at h
    have hdue : answersDue s c.reader = acceptedFrom c .readLoop ++ [response] := h
    change acceptedFrom c .readLoop <+: answersDue s c.reader
    exact hdue ▸ List.prefix_append _ _
  | finished stopping =>
    rw [Owes, stopping] at h
    exact h
  | took count producer message answers polling popped =>
    rw [acceptedFrom, (taken_pop popped).2]
    exact h
  | sent t message alive running room =>
    rw [acceptedFrom, acceptedFrom_push, if_neg (by simp), List.append_nil]
    exact h
  | _ => exact h

theorem signals_step {action : Action C.proto} (h : Signals c.reader) (ht : Transition s c action d) :
    Signals d.reader := by
  cases ht with
  | polled reader reading reads => exact signals_reads h reading reads
  | answered response answering running room =>
    rw [Signals, answering] at h
    exact h
  | refused response answering ended =>
    rw [Signals, answering] at h
    exact signals_panic h _
  | finished stopping =>
    rw [Signals, stopping] at h
    exact h
  | _ => exact h

theorem writer_step (hP : C.proto.Lawful) {k : Option (CipherState C.aead)} {action : Action C.proto}
    (h : WriterHistory s.encrypted k (taken c) c.writer) (ht : Transition s c action d) :
    WriterHistory s.encrypted k (taken d) d.writer := by
  cases ht with
  | cancellationPolled count polling => exact writerHistory_polled h polling _
  | took count producer message answers polling popped =>
    rw [taken, (taken_pop popped).1]
    exact writerHistory_answer hP h polling message
  | idle count polling empty senders =>
    rw [WriterHistory, polling] at h
    exact h
  | deserted count polling empty senders =>
    rw [WriterHistory, polling] at h
    exact ⟨taken c, [], h.2.choose, by simp [taken], by simp, h.1, h.2.choose_spec⟩
  | wrote count message pending writing => exact writerHistory_write h count writing
  | _ => exact h

theorem sends_step {action : Action C.proto}
    (h : ∀ task, acceptedFrom c (.application task) = sendsOf task actions) (ht : Transition s c action d)
    (task : ℕ) : acceptedFrom d (.application task) = sendsOf task (actions ++ [action]) := by
  cases ht with
  | answered response answering running room =>
    rw [sendsOf_snoc task actions _ (by simp), acceptedFrom, acceptedFrom_push, if_neg (by simp),
      List.append_nil]
    exact h task
  | took count producer message answers polling popped =>
    rw [sendsOf_snoc task actions _ (by simp), acceptedFrom, (taken_pop popped).2]
    exact h task
  | sent t message alive running room =>
    rw [sendsOf_send, acceptedFrom, acceptedFrom_push, ← h task]
    simp only [Producer.application.injEq]
    rfl
  | _ =>
    rw [sendsOf_snoc task actions _ (by simp)]
    exact h task

theorem history_step (hP : C.proto.Lawful) (h : History s e actions c) {action : Action C.proto}
    (ht : c.step s action = some d) : History s e (actions ++ [action]) d :=
  have ht := step_cases hP ht
  ⟨reader_step h.reader ht, owes_step h.owes ht, signals_step h.signals ht, writer_step hP h.writer ht,
    sends_step h.sends ht⟩

theorem history_run (hP : C.proto.Lawful) (h : run (State.step s) (initial e) actions = some c) :
    History s e actions c :=
  run_history (History s e) h history_initial fun _ _ _ _ _ hu hv => history_step hP hu hv

end EsphomeNativeApi.Histories
