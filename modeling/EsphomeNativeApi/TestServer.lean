import EsphomeNativeApi.Delivery
import EsphomeNativeApi.Liveness

/-!
The device of `examples/test_server.rs`: a task that lists its entities and gives the state
of its sensor to a client that asks for them.
-/

namespace EsphomeNativeApi.TestServer

open RustSemantics MessageTable PacketEncrypted Api Start Channels Runs ReadLoops WriteLoops ClientTraffic
open Connection ReadHistories WriteHistories Histories OutboundOrder Applications Safety Delivery
open StreamMessages CrashFreedom Progress Turns Liveness

def server : EspHomeApi where
  apiVersionMajor := 1
  apiVersionMinor := 42
  encryptionKey := none
  serverInfo := "test_server_info"
  name := "test_device"
  friendlyName := some "friendly_test_device"
  bluetoothMacAddress := some "B0:00:00:00:00:00"
  mac := some "00:00:00:00:00:01"
  manufacturer := some "Test Inc."
  model := some "Test Model"
  suggestedArea := some "Test Area"

structure Device (P : Proto) where
  entities : List (ProtoMessage P)
  sensorState : ProtoMessage P

def Device.replies {P : Proto} (device : Device P) (message : ProtoMessage P) : List (ProtoMessage P) :=
  match message with
  | ⟨.listEntitiesRequest, _⟩ =>
    device.entities ++ [⟨.listEntitiesDoneResponse, P.listEntitiesDoneResponse⟩]
  | ⟨.subscribeStatesRequest, _⟩ => [device.sensorState]
  | _ => []

inductive Task (P : Proto) where
  | receiving
  | sending (pending : List (ProtoMessage P))
  | returned
  | panicked (p : Panic)

/-- The connection and the task that holds its receiver. The sender lives on in the task
that accepted the connection. -/
structure DeviceState (C : Crates) where
  connection : State C
  task : Task C.proto

inductive Turn where
  | reader
  | writer (count : ℕ)
  | task

def Task.running {P : Proto} : Task P → Bool
  | .receiving | .sending _ => true
  | .returned | .panicked _ => false

def Task.pending {P : Proto} : Task P → List (ProtoMessage P)
  | .sending pending => pending
  | _ => []

variable {C : Crates}

def initial (e : Established C) : DeviceState C := ⟨Connection.initial e, .receiving⟩

namespace DeviceState

def received (device : Device C.proto) (connection : State C) :
    Received (ProtoMessage C.proto) → DeviceState C
  | .value message => ⟨connection, .sending (device.replies message)⟩
  -- `return` drops the receiver
  | .lagged _ | .closed => ⟨{ connection with receiverAlive := false }, .returned⟩

def taskStep (device : Device C.proto) (d : DeviceState C) : Option (DeviceState C) :=
  let c := d.connection
  match d.task with
  | .receiving =>
    (c.reader.outgoing.receive capacity (readerHoldsSender c.reader)).map fun next =>
      received device { c with reader := { c.reader with outgoing := next.2 } } next.1
  | .sending [] => some { d with task := .receiving }
  | .sending (message :: pending) =>
    if c.writer.running then
      if c.hasRoom then
        some ⟨{ c with answers := c.answers.push (.application 0, message) }, .sending pending⟩
      else none
    -- the `unwrap` of the `SendError`
    else some ⟨{ c with receiverAlive := false }, .panicked .unwrapErr⟩
  | .returned | .panicked _ => none

def step (s : Session) (device : Device C.proto) (d : DeviceState C) : Turn → Option (DeviceState C)
  | .reader => (d.connection.step s .read).map fun c => { d with connection := c }
  | .writer count => (d.connection.step s (.write count)).map fun c => { d with connection := c }
  | .task => d.taskStep device

end DeviceState

inductive Moves (s : Session) (device : Device C.proto) (d : DeviceState C) : Turn → DeviceState C → Prop where
  | read (c : State C) (transition : Transition s d.connection .read c) :
      Moves s device d .reader { d with connection := c }
  | wrote (count : ℕ) (c : State C) (transition : Transition s d.connection (.write count) c) :
      Moves s device d (.writer count) { d with connection := c }
  | received (message : ProtoMessage C.proto) (outgoing : Broadcast (ProtoMessage C.proto))
      (receiving : d.task = .receiving)
      (next : d.connection.reader.outgoing.receive capacity (readerHoldsSender d.connection.reader) =
        some (.value message, outgoing)) :
      Moves s device d .task
        ⟨{ d.connection with reader := { d.connection.reader with outgoing := outgoing } },
          .sending (device.replies message)⟩
  | returned (result : Received (ProtoMessage C.proto)) (outgoing : Broadcast (ProtoMessage C.proto))
      (receiving : d.task = .receiving)
      (next : d.connection.reader.outgoing.receive capacity (readerHoldsSender d.connection.reader) =
        some (result, outgoing))
      (error : result.value? = none) :
      Moves s device d .task
        ⟨{ d.connection with reader := { d.connection.reader with outgoing := outgoing }, receiverAlive := false },
          .returned⟩
  | replied (sending : d.task = .sending []) : Moves s device d .task { d with task := .receiving }
  | sent (message : ProtoMessage C.proto) (pending : List (ProtoMessage C.proto))
      (sending : d.task = .sending (message :: pending)) (running : d.connection.writer.running = true)
      (room : d.connection.hasRoom = true) :
      Moves s device d .task
        ⟨{ d.connection with answers := d.connection.answers.push (.application 0, message) }, .sending pending⟩
  | refused (message : ProtoMessage C.proto) (pending : List (ProtoMessage C.proto))
      (sending : d.task = .sending (message :: pending)) (ended : d.connection.writer.running = false) :
      Moves s device d .task ⟨{ d.connection with receiverAlive := false }, .panicked .unwrapErr⟩

theorem moves_cases (hP : C.proto.Lawful) {s : Session} {device : Device C.proto} {d u : DeviceState C}
    {turn : Turn} (h : d.step s device turn = some u) : Moves s device d turn u := by
  cases turn with
  | reader =>
    obtain ⟨c, hc, rfl⟩ := Option.map_eq_some_iff.mp h
    exact .read c (step_cases hP hc)
  | writer count =>
    obtain ⟨c, hc, rfl⟩ := Option.map_eq_some_iff.mp h
    exact .wrote count c (step_cases hP hc)
  | task =>
    simp only [DeviceState.step, DeviceState.taskStep] at h
    cases htask : d.task with
    | receiving =>
      simp only [htask] at h
      obtain ⟨⟨result, outgoing⟩, hnext, rfl⟩ := Option.map_eq_some_iff.mp h
      cases result with
      | value message => exact .received message outgoing htask hnext
      | lagged skipped => exact .returned (.lagged skipped) outgoing htask hnext rfl
      | closed => exact .returned .closed outgoing htask hnext rfl
    | sending pending =>
      cases pending with
      | nil =>
        simp only [htask] at h
        cases h
        exact .replied htask
      | cons message pending =>
        simp only [htask] at h
        split_ifs at h with hrunning hroom
        · cases h
          exact .sent message pending htask hrunning hroom
        · cases h
          exact .refused message pending htask (Bool.eq_false_iff.mpr hrunning)
    | returned => simp [htask] at h
    | panicked p => simp [htask] at h

/-- The application that the task is to its connection. -/
def Device.application (device : Device C.proto) (dropsReceiver : Bool) : Application C.proto :=
  ⟨fun reply => ∃ message, reply ∈ device.replies message, dropsReceiver, false⟩

def receivedValues (c : State C) : List (ProtoMessage C.proto) := valuesOf c.reader.outgoing.received

theorem loop_accepted {s : Session} {c c' : State C} {action : Action C.proto}
    (hother : ∀ message, action ≠ .send 0 message) (h : Transition s c action c') :
    acceptedFrom c' (.application 0) = acceptedFrom c (.application 0) := by
  cases h with
  | answered response answering running room =>
    rw [acceptedFrom, acceptedFrom_push, if_neg (by simp), List.append_nil]
    rfl
  | took count producer message answers polling popped =>
    rw [acceptedFrom, (Mpsc.pop_some popped).2.2]
    rfl
  | sent task message alive running room =>
    have htask : Producer.application task ≠ .application 0 := by
      rintro ⟨⟩
      exact hother message rfl
    rw [acceptedFrom, acceptedFrom_push, if_neg htask, List.append_nil]
    rfl
  | _ => rfl

theorem loop_producers {s : Session} {c c' : State C} {action : Action C.proto}
    (hloop : action = .read ∨ ∃ count, action = .write count) (h : Transition s c action c')
    (hproducers : ∀ entry ∈ c.answers.accepted, entry.1 = .readLoop ∨ entry.1 = .application 0) :
    ∀ entry ∈ c'.answers.accepted, entry.1 = .readLoop ∨ entry.1 = .application 0 := by
  cases h with
  | answered response answering running room =>
    simp only [Mpsc.accepted_push, List.forall_mem_append, List.forall_mem_singleton]
    exact ⟨hproducers, by simp⟩
  | took count producer message answers polling popped =>
    rw [(Mpsc.pop_some popped).2.2]
    exact hproducers
  | sent task message alive running room => simp at hloop
  | _ => exact hproducers

section Serving

variable {s : Session} {e : Established C} {device : Device C.proto} {d u : DeviceState C} {turn : Turn}

/-- What the task received is the first of what was broadcast, and the task has sent the
replies to it, up to those that are pending. -/
structure Serving (s : Session) (e : Established C) (device : Device C.proto) (d : DeviceState C) : Prop where
  reached : Reached s e (device.application (!d.task.running)) d.connection
  sender : d.connection.senderAlive = true
  receiver : d.task.running = true → d.connection.receiverAlive = true
  first : receivedValues d.connection <+: d.connection.reader.outgoing.sent
  cursor : d.task.running = true → receivedValues d.connection =
    d.connection.reader.outgoing.sent.take d.connection.reader.outgoing.cursor
  replies : acceptedFrom d.connection (.application 0) ++ d.task.pending <+:
    (receivedValues d.connection).flatMap device.replies
  replied : d.task.running = true → acceptedFrom d.connection (.application 0) ++ d.task.pending =
    (receivedValues d.connection).flatMap device.replies
  producers : ∀ entry ∈ d.connection.answers.accepted, entry.1 = .readLoop ∨ entry.1 = .application 0

theorem serving_initial : Serving s e device (initial e) where
  reached := .refl _
  sender := rfl
  receiver _ := rfl
  first := List.nil_prefix
  cursor _ := rfl
  replies := List.nil_prefix
  replied _ := rfl
  producers := List.forall_mem_nil _

theorem sound_reached (hP : C.proto.Lawful) {a : Application C.proto} {c : State C} (h : Reached s e a c) :
    c.reader.outgoing.Sound := by
  obtain ⟨actions, -, hrun⟩ := h
  exact (receiving_run hP hrun).sound

theorem serving_loop (hP : C.proto.Lawful) (h : Serving s e device d) {action : Action C.proto} {c : State C}
    (hloop : action = .read ∨ ∃ count, action = .write count)
    (hstep : d.connection.step s action = some c) : Serving s e device { d with connection := c } := by
  have ht := step_cases hP hstep
  have hallowed : (device.application (!d.task.running)).Allows action := by
    rcases hloop with rfl | ⟨count, rfl⟩ <;> trivial
  have hkept : c.senderAlive = d.connection.senderAlive ∧ c.receiverAlive = d.connection.receiverAlive := by
    cases ht with
    | senderDropped => simp at hloop
    | receiverDropped => simp at hloop
    | _ => exact ⟨rfl, rfl⟩
  have hsound := sound_reached hP h.reached
  obtain ⟨hresults, hcursor, hsent, -⟩ := unreceived_step ht (by rcases hloop with rfl | ⟨count, rfl⟩ <;> simp)
  have hreceived : receivedValues c = receivedValues d.connection := congrArg valuesOf hresults
  have haccepted : acceptedFrom c (.application 0) = acceptedFrom d.connection (.application 0) :=
    loop_accepted (by rcases hloop with rfl | ⟨count, rfl⟩ <;> simp) ht
  refine ⟨h.reached.trans (.single action hallowed hstep), ?_, ?_, ?_, ?_, ?_, ?_,
    loop_producers hloop ht h.producers⟩
  · rw [hkept.1]
    exact h.sender
  · rw [hkept.2]
    exact h.receiver
  · rw [hreceived]
    exact h.first.trans hsent
  · intro hrunning
    obtain ⟨sent, hsent⟩ := hsent
    rw [hreceived, ← hsent, hcursor, h.cursor hrunning, List.take_append_of_le_length hsound.bounded]
  · rw [hreceived, haccepted]
    exact h.replies
  · rw [hreceived, haccepted]
    exact h.replied

theorem Device.application_mono (device : Device C.proto) {dropsReceiver : Bool} (action : Action C.proto)
    (h : (device.application dropsReceiver).Allows action) : (device.application true).Allows action := by
  cases action with
  | dropReceiver => rfl
  | _ => exact h

theorem serving_received (h : Serving s e device d) {message : ProtoMessage C.proto}
    {outgoing : Broadcast (ProtoMessage C.proto)} (receiving : d.task = .receiving)
    (next : d.connection.reader.outgoing.receive capacity (readerHoldsSender d.connection.reader) =
      some (.value message, outgoing)) :
    Serving s e device
      ⟨{ d.connection with reader := { d.connection.reader with outgoing := outgoing } },
        .sending (device.replies message)⟩ := by
  have hrunning : d.task.running = true := by rw [receiving]; rfl
  have hstep := receive_enabled (s := s) (h.receiver hrunning) next
  have hreached := h.reached
  rw [hrunning] at hreached
  have hreplied : acceptedFrom d.connection (.application 0) =
      (receivedValues d.connection).flatMap device.replies := by
    simpa [receiving, Task.pending] using h.replied hrunning
  have hvalues : valuesOf outgoing.received = receivedValues d.connection ++ [message] ∧
      valuesOf outgoing.received = outgoing.sent.take outgoing.cursor := by
    cases Broadcast.receive_cases next with
    | value _ keeping found =>
      obtain ⟨hlt, ha⟩ := List.getElem?_eq_some_iff.mp found
      rw [valuesOf_append, List.take_succ_eq_append_getElem hlt, ha, ← h.cursor hrunning]
      exact ⟨rfl, rfl⟩
  refine ⟨hreached.trans (.single .receive trivial hstep), h.sender, fun _ => h.receiver hrunning, ?_,
    fun _ => hvalues.2, ?_, ?_, h.producers⟩
  · rw [receivedValues, hvalues.2]
    exact List.take_prefix _ _
  · rw [receivedValues, hvalues.1, List.flatMap_append, ← hreplied, List.flatMap_singleton]
    exact List.prefix_refl _
  · intro _
    rw [receivedValues, hvalues.1, List.flatMap_append, ← hreplied, List.flatMap_singleton]
    rfl

theorem serving_returned (h : Serving s e device d) {result : Received (ProtoMessage C.proto)}
    {outgoing : Broadcast (ProtoMessage C.proto)} (receiving : d.task = .receiving)
    (next : d.connection.reader.outgoing.receive capacity (readerHoldsSender d.connection.reader) =
      some (result, outgoing)) (error : result.value? = none) :
    Serving s e device
      ⟨{ d.connection with reader := { d.connection.reader with outgoing := outgoing }, receiverAlive := false },
        .returned⟩ := by
  have hrunning : d.task.running = true := by rw [receiving]; rfl
  have hstep := receive_enabled (s := s) (h.receiver hrunning) next
  have hreached := (h.reached.mono (device.application_mono)).trans (.single .receive trivial hstep)
  obtain ⟨hsent, happends⟩ := Broadcast.receives_appends (Broadcast.receive_cases next)
  have hvalues : valuesOf outgoing.received = receivedValues d.connection := by
    rw [happends, valuesOf_append]
    cases result with
    | value a => cases error
    | _ => exact List.append_nil _
  have hreplies := h.replies
  rw [receiving] at hreplies
  refine ⟨hreached.trans (.single .dropReceiver rfl rfl), h.sender, (fun hn => by cases hn), ?_,
    (fun hn => by cases hn), ?_, (fun hn => by cases hn), h.producers⟩
  · rw [receivedValues, hvalues, hsent]
    exact h.first
  · rw [receivedValues, hvalues]
    exact hreplies

theorem serving_sent (h : Serving s e device d) {message : ProtoMessage C.proto}
    {pending : List (ProtoMessage C.proto)} (sending : d.task = .sending (message :: pending))
    (running : d.connection.writer.running = true) (room : d.connection.hasRoom = true) :
    Serving s e device
      ⟨{ d.connection with answers := d.connection.answers.push (.application 0, message) }, .sending pending⟩ := by
  have hrunning : d.task.running = true := by rw [sending]; rfl
  have hreplied := h.replied hrunning
  rw [sending, Task.pending] at hreplied
  have hallowed : (device.application false).Allows (.send 0 message) := by
    have hm : message ∈ (receivedValues d.connection).flatMap device.replies := by
      rw [← hreplied]
      simp
    obtain ⟨request, -, hreply⟩ := List.mem_flatMap.mp hm
    exact ⟨request, hreply⟩
  have hstep : State.step s d.connection (.send 0 message) =
      some { d.connection with answers := d.connection.answers.push (.application 0, message) } := by
    simp [State.step, h.sender, running, room]
  have hreached := h.reached
  rw [hrunning] at hreached
  have haccepted : acceptedFrom
      { d.connection with answers := d.connection.answers.push (.application 0, message) } (.application 0) ++
        pending = acceptedFrom d.connection (.application 0) ++ message :: pending := by
    rw [acceptedFrom, acceptedFrom_push, if_pos rfl, List.append_assoc]
    rfl
  refine ⟨hreached.trans (.single _ hallowed hstep), h.sender, fun _ => h.receiver hrunning, h.first,
    fun _ => h.cursor hrunning, ?_, ?_, ?_⟩
  · exact (haccepted.trans hreplied) ▸ List.prefix_refl _
  · exact fun _ => haccepted.trans hreplied
  · simp only [Mpsc.accepted_push, List.forall_mem_append, List.forall_mem_singleton]
    exact ⟨h.producers, by simp⟩

theorem serving_step (hP : C.proto.Lawful) (h : Serving s e device d)
    (hstep : d.step s device turn = some u) : Serving s e device u := by
  cases moves_cases hP hstep with
  | read c transition =>
    obtain ⟨c', hc, heq⟩ := Option.map_eq_some_iff.mp hstep
    rw [← heq]
    exact serving_loop hP h (.inl rfl) hc
  | wrote count c transition =>
    obtain ⟨c', hc, heq⟩ := Option.map_eq_some_iff.mp hstep
    rw [← heq]
    exact serving_loop hP h (.inr ⟨count, rfl⟩) hc
  | received message outgoing receiving next => exact serving_received h receiving next
  | returned result outgoing receiving next error => exact serving_returned h receiving next error
  | replied sending =>
    have hrunning : d.task.running = true := by rw [sending]; rfl
    have hreached := h.reached
    have hreplies := h.replies
    have hreplied := h.replied hrunning
    rw [hrunning] at hreached
    rw [sending] at hreplies hreplied
    exact ⟨hreached, h.sender, fun _ => h.receiver hrunning, h.first, fun _ => h.cursor hrunning, hreplies,
      fun _ => hreplied, h.producers⟩
  | sent message pending sending running room => exact serving_sent h sending running room
  | refused message pending sending ended =>
    have hreached := (h.reached.mono (device.application_mono)).trans (.single .dropReceiver rfl rfl)
    refine ⟨hreached, h.sender, (fun hn => by cases hn), h.first, (fun hn => by cases hn), ?_,
      (fun hn => by cases hn), h.producers⟩
    exact (List.prefix_append_right_inj _).mpr List.nil_prefix |>.trans h.replies

theorem serving_run (hP : C.proto.Lawful) {turns : List Turn}
    (h : run (DeviceState.step s device) (initial e) turns = some d) : Serving s e device d := by
  apply run_invariant (Serving s e device) h serving_initial
  intro turn _ u v hu hv
  exact serving_step hP hu hv

end Serving

theorem taken_split {c : State C} {decoded inFlight : List (ProtoMessage C.proto)}
    (h : taken c = decoded ++ inFlight) :
    ∃ entries : List (Producer × ProtoMessage C.proto), entries.map Prod.snd = decoded ∧
      entries <+: c.answers.accepted := by
  obtain ⟨entries, rest, hsplit, rfl, rfl⟩ := List.map_eq_append_iff.mp h
  refine ⟨entries, rfl, ?_⟩
  apply List.IsPrefix.trans ?_ c.answers.taken_accepted
  exact ⟨rest, hsplit.symm⟩

/-- What a client reads of the device is a merge of the answers of the read loop and the
replies of the task. Each comes in the order of the client's own messages. -/
theorem device_transcript (C : Crates) (hC : C.Lawful) (s : Session) (e : Established C)
    (device : Device C.proto) (turns : List Turn) (d : DeviceState C)
    (h : run (DeviceState.step s device) (initial e) turns = some d)
    (hfits : ∀ entry ∈ d.connection.answers.accepted, Fits C s.encrypted entry.2) :
    ∃ (requests : List (ProtoMessage C.proto)) (entries : List (Producer × ProtoMessage C.proto)) (left : Bytes),
      requests = carried C s.encrypted e.decryptCypher (e.src.data ++ e.incoming.flatten) ∧
      Reads C s.encrypted e.encryptCypher d.connection.writer.wire (entries.map Prod.snd) left ∧
      (∀ entry ∈ entries, entry.1 = .readLoop ∨ entry.1 = .application 0) ∧
      entries.filterMap (from? .readLoop) <+: requests.filterMap (fun message => (s.api.dispatch message).answer?) ∧
      entries.filterMap (from? (.application 0)) <+:
        (requests.filterMap fun message => (s.api.dispatch message).forward?).flatMap device.replies := by
  have hserving := serving_run hC.proto (e := e) h
  obtain ⟨actions, -, hrun⟩ := hserving.reached
  have hhistory := history_run hC.proto hrun
  have htaken : ∀ message ∈ taken d.connection, Fits C s.encrypted message := by
    intro message hm
    obtain ⟨entry, hentry, rfl⟩ := List.mem_map.mp hm
    exact hfits entry (d.connection.answers.taken_accepted.subset hentry)
  obtain ⟨decoded, inFlight, left, hreads, hsplit, -⟩ := writer_reads hC hhistory.writer htaken
  obtain ⟨entries, rfl, hentries⟩ := taken_split hsplit
  have hcarried := handled_carried hhistory.reader
  refine ⟨_, entries, left, rfl, hreads, ?_, ?_, ?_⟩
  · intro entry hentry
    exact hserving.producers entry (hentries.subset hentry)
  · apply (hentries.filterMap _).trans
    apply (owes_due hhistory.owes).trans
    exact hcarried.filterMap _
  · apply (hentries.filterMap _).trans
    have hreplies : acceptedFrom d.connection (.application 0) <+:
        (receivedValues d.connection).flatMap device.replies :=
      (List.prefix_append _ _).trans hserving.replies
    apply hreplies.trans
    apply List.IsPrefix.flatMap
    apply hserving.first.trans
    exact hhistory.reader.broadcast.1.trans (hcarried.filterMap _)

def thermometer : Device tagCrates.proto where
  entities := [⟨.listEntitiesSensorResponse, []⟩]
  sensorState := ⟨.sensorStateResponse, []⟩

theorem listing_traffic : Traffic tagCrates false none [0, 0, 11] [⟨.listEntitiesRequest, []⟩] :=
  traffic_emptyFrame 11 [] rfl (.done _)

theorem device_transcript_listing :
    ∃ (d : DeviceState tagCrates) (entries : List (Producer × ProtoMessage tagCrates.proto)) (left : Bytes),
      run (DeviceState.step ⟨server, false, false, false⟩ thermometer) (initial (plaintextStart [[0, 0, 11]]))
        [.reader, .reader, .task, .task, .task, .writer 1, .writer 1, .writer 9, .task] = some d ∧
      Reads tagCrates false none d.connection.writer.wire (entries.map Prod.snd) left ∧
      entries.filterMap (from? (.application 0)) <+:
        [⟨.listEntitiesSensorResponse, []⟩, ⟨.listEntitiesDoneResponse, []⟩] := by
  obtain ⟨d, hrun⟩ : ∃ d, run (DeviceState.step ⟨server, false, false, false⟩ thermometer)
      (initial (plaintextStart [[0, 0, 11]]))
      [.reader, .reader, .task, .task, .task, .writer 1, .writer 1, .writer 9, .task] = some d :=
    Option.isSome_iff_exists.mp (by decide +kernel)
  obtain ⟨requests, entries, left, hrequests, hreads, -, -, hreplies⟩ :=
    device_transcript tagCrates tagCrates_lawful ⟨server, false, false, false⟩ (plaintextStart [[0, 0, 11]])
      thermometer _ d hrun fun _ _ hencrypted => absurd hencrypted (by decide)
  have hcarried : requests = [⟨.listEntitiesRequest, []⟩] := hrequests.trans (traffic_carried listing_traffic)
  subst hcarried
  exact ⟨d, entries, left, hrun, hreads, hreplies⟩

section Survival

variable {s : Session} {e : Established C} {device : Device C.proto}

/-- What the task may send harms nothing, while it keeps its receiver. -/
theorem device_harmless {received : List (ProtoMessage C.proto)}
    (hstays : ∀ message ∈ received, isDisconnectRequest message = false) (hanswers : AnswersEncodable C s received)
    (hdevice : ∀ message, ∀ reply ∈ device.replies message,
      Encodable C s.encrypted reply ∧ isDisconnectResponse reply = false) :
    Harmless s (device.application false) received where
  after_disconnect := by
    apply List.pairwise_of_forall_mem_list
    intro request hm _ _ hd
    rw [hstays request hm] at hd
    cases hd
  disconnects := by
    rintro reply ⟨message, hreply⟩ hd
    rw [(hdevice message reply hreply).2] at hd
    cases hd
  sends_encodable := by
    rintro reply ⟨message, hreply⟩
    exact (hdevice message reply hreply).1
  answers_encodable := hanswers
  receiver h := by cases h
  sender h := by cases h

/-- What holds of a device whose task is running, while its client stays. -/
structure Kept (s : Session) (e : Established C) (device : Device C.proto) (received : List (ProtoMessage C.proto))
    (d : DeviceState C) : Prop where
  serving : Serving s e device d
  running : d.task.running = true
  holds : readerHoldsSender d.connection.reader = true
  writes : d.connection.writer.running = true
  broadcast : d.connection.reader.outgoing.sent <+: received.filterMap fun message => (s.api.dispatch message).forward?

theorem kept_of_serving (hC : C.Lawful) {received : List (ProtoMessage C.proto)}
    (hk : s.encrypted = true → e.encryptCypher.isSome)
    (ht : Traffic C s.encrypted e.decryptCypher (e.src.data ++ e.incoming.flatten) received)
    (hh : Harmless s (device.application false) received) (hs : s.streamEnds = false)
    (hstays : ∀ message ∈ received, isDisconnectRequest message = false)
    (hstays' : ∀ message, ∀ reply ∈ device.replies message, isDisconnectResponse reply = false)
    {d : DeviceState C} (hserving : Serving s e device d) (hrunning : d.task.running = true) :
    Kept s e device received d := by
  have hreached := hserving.reached
  rw [hrunning] at hreached
  obtain ⟨hsafe, actions, hhistory⟩ := safe_run hC hk ht hh hreached
  have hreplies : ∀ reply, (device.application false).sends reply → isDisconnectResponse reply = false := by
    rintro reply ⟨message, hreply⟩
    exact hstays' message reply hreply
  obtain ⟨hholds, hwrites⟩ := keeps_running hsafe hhistory hs hstays hreplies
  exact ⟨hserving, hrunning, hholds, hwrites, broadcast_prefix hsafe.reader hhistory⟩

/-- The task does not fall behind the channel, so that nothing ends it. -/
theorem running_step (hP : C.proto.Lawful) {received : List (ProtoMessage C.proto)}
    (hfew : (received.filterMap fun message => (s.api.dispatch message).forward?).length ≤ capacity)
    {d u : DeviceState C} {turn : Turn} (h : Kept s e device received d)
    (hstep : d.step s device turn = some u) : u.task.running = true := by
  cases moves_cases hP hstep with
  | returned result outgoing receiving next error =>
    have hsent := h.broadcast.length_le
    cases Broadcast.receive_cases next with
    | value a keeping found => cases error
    | lagged behind => omega
    | closed ended drained => cases h.holds.symm.trans ended
  | refused message pending sending ended => cases h.writes.symm.trans ended
  | read c transition => exact h.running
  | wrote count c transition => exact h.running
  | _ => rfl

theorem thermometer_replies (message : ProtoMessage tagCrates.proto) :
    ∀ reply ∈ thermometer.replies message, Encodable tagCrates false reply ∧ isDisconnectResponse reply = false := by
  intro reply hreply
  have hempty : reply.body = [] ∧ reply.kind ≠ .disconnectResponse := by
    unfold Device.replies at hreply
    split at hreply
    · simp only [thermometer, List.singleton_append, List.mem_cons, List.not_mem_nil, or_false] at hreply
      rcases hreply with rfl | rfl <;> exact ⟨rfl, by decide⟩
    · cases List.mem_singleton.mp hreply
      exact ⟨rfl, by decide⟩
    · cases hreply
  obtain ⟨kind, body⟩ := reply
  obtain ⟨rfl, hkind⟩ := hempty
  exact ⟨emptyMessage_encodable kind, by simpa [isDisconnectResponse] using hkind⟩

end Survival

end EsphomeNativeApi.TestServer
