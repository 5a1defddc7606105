import EsphomeNativeApi.TestServer

/-!
The device of `examples/test_server.rs` comes to give all its replies, in every schedule in
which the loops and its task get their turns.
-/

namespace EsphomeNativeApi.TestServerLiveness

open Filter RustSemantics MessageTable PacketEncrypted Api Start Channels Runs FairSchedules ReadLoops WriteLoops
open ClientTraffic Connection ReadHistories WriteHistories Histories Applications Safety Delivery CrashFreedom
open EndOfStream StreamMessages Turns Liveness TestServer

variable {C : Crates} {s : Session} {e : Established C} {device : Device C.proto}

def ofTask (turn : Turn) : Prop := turn = .task

structure FairTurns (S : Schedule (DeviceState.step (C := C) s device)) : Prop where
  reader : S.StronglyFair fun turn => turn = .reader
  writer : S.WeaklyFair fun turn => ∃ count, 0 < count ∧ turn = .writer count
  task : S.StronglyFair ofTask

def connectionAction (d : DeviceState C) : Turn → Option (Action C.proto)
  | .reader => some .read
  | .writer count => some (.write count)
  | .task =>
    match d.task with
    | .receiving => some .receive
    | .sending (message :: _) => some (.send 0 message)
    | _ => none

theorem connection_advances (hC : C.Lawful) {d u : DeviceState C} {turn : Turn} (hserving : Serving s e device d)
    (hrunning : d.task.running = true) (hrunning' : u.task.running = true)
    (hstep : d.step s device turn = some u) :
    advance (State.step s) d.connection (connectionAction d turn) = some u.connection := by
  cases turn with
  | reader =>
    obtain ⟨c, hc, rfl⟩ := Option.map_eq_some_iff.mp hstep
    exact hc
  | writer count =>
    obtain ⟨c, hc, rfl⟩ := Option.map_eq_some_iff.mp hstep
    exact hc
  | task =>
    cases moves_cases hC.proto hstep with
    | received message outgoing receiving next =>
      rw [connectionAction, receiving]
      exact receive_enabled (s := s) (hserving.receiver hrunning) next
    | returned result outgoing receiving next error => cases hrunning'
    | replied sending =>
      rw [connectionAction, sending]
      rfl
    | sent message pending sending running room =>
      rw [connectionAction, sending]
      simp [advance, State.step, hserving.sender, running, room]
    | refused message pending sending ended => cases hrunning'

section Work

/-- How many turns the task can still take, with `requests` to be replied to: one to receive
a request, one to go back, one for each reply. -/
def taskWork (device : Device C.proto) (requests : List (ProtoMessage C.proto)) (d : DeviceState C) : ℕ :=
  ((requests.flatMap device.replies).length - (acceptedFrom d.connection (.application 0)).length) +
    2 * (requests.length - (receivedValues d.connection).length) +
    match d.task with
    | .sending _ => 1
    | _ => 0

variable {requests : List (ProtoMessage C.proto)} {d u : DeviceState C} {turn : Turn}

theorem taskWork_step (hC : C.Lawful) (hserving : Serving s e device u)
    (hrequests : receivedValues u.connection <+: requests) (hrunning : u.task.running = true)
    (hstep : d.step s device turn = some u) :
    taskWork device requests u ≤ taskWork device requests d ∧
      (ofTask turn → taskWork device requests u < taskWork device requests d) := by
  have hfew := hrequests.length_le
  have hsent : (acceptedFrom u.connection (.application 0)).length ≤ (requests.flatMap device.replies).length := by
    have hfirst : acceptedFrom u.connection (.application 0) <+: requests.flatMap device.replies :=
      ((List.prefix_append _ _).trans hserving.replies).trans (hrequests.flatMap _)
    exact hfirst.length_le
  cases moves_cases hC.proto hstep with
  | read c transition =>
    have hreceived : receivedValues c = receivedValues d.connection :=
      congrArg valuesOf (unreceived_step transition (by simp)).1
    rw [taskWork, taskWork, hreceived, loop_accepted (by simp) transition]
    exact ⟨le_refl _, fun h => by cases h⟩
  | wrote count c transition =>
    have hreceived : receivedValues c = receivedValues d.connection :=
      congrArg valuesOf (unreceived_step transition (by simp)).1
    rw [taskWork, taskWork, hreceived, loop_accepted (by simp) transition]
    exact ⟨le_refl _, fun h => by cases h⟩
  | received message outgoing receiving next =>
    have hvalues : valuesOf outgoing.received = receivedValues d.connection ++ [message] := by
      rw [(Broadcast.receives_appends (Broadcast.receive_cases next)).2, valuesOf_append]
      rfl
    have hless : taskWork device requests
        ⟨{ d.connection with reader := { d.connection.reader with outgoing := outgoing } },
          .sending (device.replies message)⟩ < taskWork device requests d := by
      rw [receivedValues, hvalues, List.length_append, List.length_singleton] at hfew
      rw [taskWork, taskWork, receiving, receivedValues, hvalues, List.length_append, List.length_singleton]
      change _ - (acceptedFrom d.connection (.application 0)).length + _ + _ < _
      simp only
      omega
    exact ⟨hless.le, fun _ => hless⟩
  | returned result outgoing receiving next error => cases hrunning
  | replied sending =>
    rw [taskWork, taskWork, sending]
    exact ⟨Nat.le_succ _, fun _ => Nat.lt_succ_self _⟩
  | sent message pending sending running room =>
    have haccepted : acceptedFrom
        { d.connection with answers := d.connection.answers.push (.application 0, message) } (.application 0) =
          acceptedFrom d.connection (.application 0) ++ [message] := by
      rw [acceptedFrom, acceptedFrom_push, if_pos rfl]
      rfl
    have hless : taskWork device requests
        ⟨{ d.connection with answers := d.connection.answers.push (.application 0, message) }, .sending pending⟩ <
          taskWork device requests d := by
      rw [haccepted, List.length_append, List.length_singleton] at hsent
      rw [taskWork, taskWork, sending, haccepted, List.length_append, List.length_singleton]
      change _ + 2 * (_ - (receivedValues d.connection).length) + _ < _
      simp only
      omega
    exact ⟨hless.le, fun _ => hless⟩
  | refused message pending sending ended => cases hrunning

end Work

section Schedules

variable {S : Schedule (DeviceState.step (C := C) s device)}

def connectionSchedule (hC : C.Lawful) (S : Schedule (DeviceState.step (C := C) s device))
    (hserving : ∀ n, Serving s e device (S.state n)) (hrunning : ∀ n, (S.state n).task.running = true) :
    Schedule (State.step (C := C) s) :=
  S.project DeviceState.connection connectionAction fun n _ =>
    connection_advances hC (hserving n) (hrunning n) (hrunning (n + 1))

variable (hC : C.Lawful) (hserving : ∀ n, Serving s e device (S.state n))
  (hrunning : ∀ n, (S.state n).task.running = true)

theorem connection_fair (hfair : FairTurns S) : Fair (connectionSchedule hC S hserving hrunning) where
  reads := by
    apply Schedule.project_stronglyFair hfair.reader
    · rintro n ⟨action, rfl, hsome⟩
      exact ⟨.reader, rfl, (Option.isSome_map ..).trans hsome⟩
    · rintro n turn rfl
      exact ⟨.read, rfl, rfl⟩
  writes := by
    apply Schedule.project_weaklyFair hfair.writer
    · rintro n ⟨action, ⟨count, hcount, rfl⟩, hsome⟩
      exact ⟨.writer count, ⟨count, hcount, rfl⟩, (Option.isSome_map ..).trans hsome⟩
    · rintro n turn ⟨count, hcount, rfl⟩
      exact ⟨.write count, rfl, count, hcount, rfl⟩

end Schedules

theorem task_disabled {d : DeviceState C} (hrunning : d.task.running = true)
    (hfew : d.connection.reader.outgoing.sent.length ≤ capacity)
    (h : ¬ Enabled (DeviceState.step s device) ofTask d) :
    (d.task = .receiving ∧ d.connection.reader.outgoing.sent.length ≤ d.connection.reader.outgoing.cursor) ∨
      d.connection.answers.queue ≠ [] := by
  have hnone : d.taskStep device = none := by
    by_contra hsome
    exact h ⟨.task, rfl, Option.isSome_iff_ne_none.mpr hsome⟩
  cases htask : d.task with
  | receiving =>
    left
    refine ⟨rfl, ?_⟩
    have hkeeps : ¬ d.connection.reader.outgoing.cursor + capacity < d.connection.reader.outgoing.sent.length := by
      omega
    simp only [DeviceState.taskStep, htask, Option.map_eq_none_iff, Broadcast.receive, Broadcast.next, if_neg hkeeps]
      at hnone
    cases hsent : d.connection.reader.outgoing.sent[d.connection.reader.outgoing.cursor]? with
    | none => exact List.getElem?_eq_none_iff.mp hsent
    | some message => simp [hsent] at hnone
  | sending pending =>
    right
    intro hempty
    cases pending with
    | nil => simp [DeviceState.taskStep, htask] at hnone
    | cons message pending =>
      simp only [DeviceState.taskStep, htask, State.hasRoom, hempty] at hnone
      split_ifs at hnone with hrunning' hroom
      simp [capacity] at hroom
  | returned => simp [Task.running, htask] at hrunning
  | panicked p => simp [Task.running, htask] at hrunning

section Serves

variable {S : Schedule (DeviceState.step (C := C) s device)} {received : List (ProtoMessage C.proto)} {N n : ℕ}

theorem kept_schedule (hC : C.Lawful) (hk : s.encrypted = true → e.encryptCypher.isSome)
    (ht : Traffic C s.encrypted e.decryptCypher (e.src.data ++ e.incoming.flatten) received)
    (hh : Harmless s (device.application false) received) (hs : s.streamEnds = false)
    (hstays : ∀ message ∈ received, isDisconnectRequest message = false)
    (hstays' : ∀ message, ∀ reply ∈ device.replies message, isDisconnectResponse reply = false)
    (hfew : (received.filterMap fun message => (s.api.dispatch message).forward?).length ≤ capacity)
    (h0 : S.state 0 = TestServer.initial e) (n : ℕ) : Kept s e device received (S.state n) := by
  have hboth : Serving s e device (S.state n) ∧ (S.state n).task.running = true := by
    apply S.always (fun d => Serving s e device d ∧ d.task.running = true) 0 ?_ ?_ n n.zero_le
    · rw [h0]
      exact ⟨serving_initial, rfl⟩
    · rintro k turn - ⟨hserving, hrunning⟩ hmoves
      have hkept := kept_of_serving hC hk ht hh hs hstays hstays' hserving hrunning
      exact ⟨serving_step hC.proto hserving hmoves, running_step hC.proto hfew hkept hmoves⟩
  exact kept_of_serving hC hk ht hh hs hstays hstays' hboth.1 hboth.2

theorem task_stuck (hC : C.Lawful) (hkept : ∀ n, Kept s e device received (S.state n)) (hfair : FairTurns S) :
    ∀ᶠ n in atTop, ¬ Enabled (DeviceState.step s device) ofTask (S.state n) := by
  let requests := received.filterMap fun message => (s.api.dispatch message).forward?
  have hwork : ∀ n turn, (S.state n).step s device turn = some (S.state (n + 1)) →
      taskWork device requests (S.state (n + 1)) ≤ taskWork device requests (S.state n) ∧
        (ofTask turn → taskWork device requests (S.state (n + 1)) < taskWork device requests (S.state n)) := by
    intro n turn hmoves
    obtain ⟨hserving, hrunning, -, -, hbroadcast⟩ := hkept (n + 1)
    exact taskWork_step hC hserving (hserving.first.trans hbroadcast) hrunning hmoves
  exact S.eventually_disabled hfair.task (taskWork device requests) (fun n turn hmoves => (hwork n turn hmoves).1)
    fun n turn hmoves => (hwork n turn hmoves).2

/-- Nobody sends anything once the read loop waits for the client and the task for the read
loop. -/
theorem accepted_settled (hP : C.proto.Lawful)
    (h : ∀ n, N ≤ n → Waiting s (S.state n).connection.reader ∧
      ¬ Enabled (DeviceState.step s device) ofTask (S.state n)) :
    ∀ n, N ≤ n → (S.state n).connection.answers.accepted = (S.state N).connection.answers.accepted := by
  apply S.always (fun d => d.connection.answers.accepted = (S.state N).connection.answers.accepted) N rfl
  intro n turn hn ih hmoves
  rw [← ih]
  obtain ⟨hwaits, hstuck⟩ := h n hn
  have hreading : (S.state n).connection.reader.state = .reading := hwaits.reading
  generalize S.state (n + 1) = u at hmoves
  cases turn with
  | task => exact absurd ⟨.task, rfl, by rw [hmoves]; rfl⟩ hstuck
  | reader =>
    cases moves_cases hP hmoves with
    | read c transition =>
      cases transition with
      | answered response answering running room => cases hreading.symm.trans answering
      | _ => rfl
  | writer count =>
    cases moves_cases hP hmoves with
    | wrote count c transition =>
      cases transition with
      | took count producer message answers polling popped => exact (Mpsc.pop_some popped).2.2
      | _ => rfl

theorem queue_drains (hC : C.Lawful) (hkept : ∀ n, Kept s e device received (S.state n)) (hfair : FairTurns S)
    (hsame : ∀ n, N ≤ n → (S.state n).connection.answers.accepted = (S.state N).connection.answers.accepted) :
    ∃ n, N ≤ n ∧ (S.state n).connection.answers.queue = [] := by
  have hconnection := connection_fair hC (fun n => (hkept n).serving) (fun n => (hkept n).running) hfair
  obtain ⟨n, hn, htaken⟩ := takes_all hC.proto hconnection (fun n => (hkept n).writes) N
  have htaken : (S.state n).connection.answers.accepted <+: (S.state n).connection.answers.taken := by
    rw [hsame n hn]
    exact htaken
  have hlength := htaken.length_le
  rw [Mpsc.accepted, List.length_append] at hlength
  exact ⟨n, hn, List.length_eq_zero_iff.mp (by omega)⟩

end Serves

/-- A client that sends whole messages, of which no more than fit into the channel are for
the device, and stays. -/
theorem device_serves_all (C : Crates) (hC : C.Lawful) (api : EspHomeApi) (chunks : List Bytes)
    (outcome : StartRun C) (e : Established C) (hstart : start C api chunks = .ok outcome)
    (he : outcome.result = .ok e) (debugEnabled : Bool) (received : List (ProtoMessage C.proto))
    (ht : Traffic C e.encrypted e.decryptCypher (e.src.data ++ e.incoming.flatten) received)
    (hstays : ∀ message ∈ received, isDisconnectRequest message = false)
    (hanswers : AnswersEncodable C ⟨api, e.encrypted, false, debugEnabled⟩ received) (device : Device C.proto)
    (hdevice : ∀ message, ∀ reply ∈ device.replies message,
      Encodable C e.encrypted reply ∧ isDisconnectResponse reply = false)
    (hfew : (received.filterMap fun message => (api.dispatch message).forward?).length ≤ capacity)
    (S : Schedule (DeviceState.step (C := C) ⟨api, e.encrypted, false, debugEnabled⟩ device))
    (h0 : S.state 0 = TestServer.initial e) (hfair : FairTurns S) :
    ∃ accepted : List (Producer × ProtoMessage C.proto),
      accepted.filterMap (from? .readLoop) = received.filterMap (fun message => (api.dispatch message).answer?) ∧
      accepted.filterMap (from? (.application 0)) =
        (received.filterMap fun message => (api.dispatch message).forward?).flatMap device.replies ∧
      (∀ entry ∈ accepted, entry.1 = .readLoop ∨ entry.1 = .application 0) ∧
      ∀ᶠ n in atTop, Written C e.encrypted e.encryptCypher (S.state n).connection.writer.wire
        (accepted.map Prod.snd) := by
  have hkept : ∀ n, Kept ⟨api, e.encrypted, false, debugEnabled⟩ e device received (S.state n) :=
    kept_schedule hC (established_keyed hC hstart he) ht (device_harmless hstays hanswers hdevice) rfl hstays
      (fun message reply hreply => (hdevice message reply hreply).2) hfew h0
  -- the connection sees a fair schedule of its own
  let T := connectionSchedule hC S (fun n => (hkept n).serving) fun n => (hkept n).running
  have hT0 : T.state 0 = Connection.initial e := congrArg DeviceState.connection h0
  have hTfair : Fair T := connection_fair hC _ _ hfair
  obtain ⟨hsettled, -⟩ := serves hC hT0 hTfair (fun n => (hkept n).holds) fun n => (hkept n).writes
  have hwaiting := settles hC.proto hT0 hTfair fun n => (hkept n).holds
  obtain ⟨N, hN⟩ := eventually_atTop.mp (hsettled.and (hwaiting.and (task_stuck hC hkept hfair)))
  have hsame := accepted_settled hC.proto fun n hn => (hN n hn).2
  obtain ⟨m, hm, hempty⟩ := queue_drains hC hkept hfair hsame
  have hwritten := writes_out hC hT0 hTfair (N := m) (fun n => (hkept n).writes) fun n hn => by
    exact (hsame n (hm.trans hn)).trans (hsame m hm).symm
  obtain ⟨⟨hmessages, hanswered, hsent⟩, -, hstuck⟩ := hN m hm
  have hmessages : messages (S.state m).connection.reader = received := hmessages.trans (traffic_carried ht)
  have hsent : (S.state m).connection.reader.outgoing.sent =
      received.filterMap fun message => (api.dispatch message).forward? := by
    rw [← hmessages]
    exact hsent
  obtain ⟨hreceiving, hdrained⟩ := (task_disabled (hkept m).running (by rw [hsent]; exact hfew) hstuck).resolve_right
    (not_not.mpr hempty)
  refine ⟨(S.state m).connection.answers.accepted, ?_, ?_, (hkept m).serving.producers, hwritten⟩
  · rw [← hmessages]
    exact hanswered
  · have hreplied := (hkept m).serving.replied (hkept m).running
    rw [(hkept m).serving.cursor (hkept m).running, List.take_of_length_le hdrained, hsent, hreceiving] at hreplied
    rw [← hreplied, Task.pending, List.append_nil]
    · rfl
    · simp

def isIdleDevice (s : Session) (d : DeviceState C) : Bool :=
  match d.task with
  | .receiving => isIdle s d.connection &&
      (d.connection.reader.outgoing.next capacity (readerHoldsSender d.connection.reader)).isNone
  | _ => false

theorem device_idles {d : DeviceState C} (h : isIdleDevice s d = true) :
    ∃ S : Schedule (DeviceState.step (C := C) s device), S.state 0 = d ∧ FairTurns S := by
  unfold isIdleDevice at h
  split at h <;> try cases h
  rename_i htask
  obtain ⟨hidle, hnext⟩ := (Bool.and_eq_true _ _).mp h
  have hnext := Option.isNone_iff_eq_none.mp hnext
  obtain ⟨polled, hout, hback, hreader, hreceiver⟩ := idle_polls hidle
  have hout' : d.step s device (.writer 1) = some { d with connection := polled } := by
    rw [DeviceState.step, hout]
    rfl
  have hback' : DeviceState.step s device { d with connection := polled } (.writer 1) = some d := by
    rw [DeviceState.step, hback]
    rfl
  obtain ⟨S, h0, htakes, hdisabled, -⟩ := Schedule.exists_alternating hout' hback'
  refine ⟨S, h0, (hdisabled _ ?_ ?_).1, htakes _ ⟨1, one_pos, rfl⟩ ⟨1, one_pos, rfl⟩, (hdisabled ofTask ?_ ?_).1⟩
  · rintro ⟨turn, rfl, hsome⟩
    simp [DeviceState.step, idle_unread hidle rfl rfl] at hsome
  · rintro ⟨turn, rfl, hsome⟩
    simp [DeviceState.step, idle_unread hidle hreader hreceiver] at hsome
  all_goals
    rintro ⟨turn, rfl, hsome⟩
    simp [DeviceState.step, DeviceState.taskStep, htask, Broadcast.receive, hreader, hnext] at hsome

theorem device_serves_all_listing :
    ∃ outcome e, ∃ S : Schedule (DeviceState.step (C := tagCrates) ⟨server, false, false, false⟩ thermometer),
      start tagCrates server [[0, 0, 11]] = .ok outcome ∧ outcome.result = .ok e ∧
      S.state 0 = TestServer.initial e ∧ FairTurns S ∧
      ∃ accepted : List (Producer × ProtoMessage tagCrates.proto),
        accepted.filterMap (from? (.application 0)) =
          [⟨.listEntitiesSensorResponse, []⟩, ⟨.listEntitiesDoneResponse, []⟩] ∧
        ∀ᶠ n in atTop, Written tagCrates false none (S.state n).connection.writer.wire (accepted.map Prod.snd) := by
  obtain ⟨d, hrun, hidle⟩ : ∃ d, run (DeviceState.step ⟨server, false, false, false⟩ thermometer)
      (TestServer.initial (plaintextStart [[0, 0, 11]]))
      [.reader, .reader, .task, .task, .task, .task, .writer 1, .writer 1, .writer 9, .writer 1, .writer 1,
        .writer 9] = some d ∧ isIdleDevice ⟨server, false, false, false⟩ d = true := run_check (by decide +kernel)
  obtain ⟨T, rfl, hfair⟩ : ∃ T : Schedule (DeviceState.step (C := tagCrates) ⟨server, false, false, false⟩ thermometer),
      T.state 0 = d ∧ FairTurns T := device_idles hidle
  obtain ⟨S, h0, hends, -⟩ := T.exists_prepend hrun
  have hfair : FairTurns S :=
    ⟨hends.stronglyFair hfair.reader, hends.weaklyFair hfair.writer, hends.stronglyFair hfair.task⟩
  have hanswers : AnswersEncodable tagCrates ⟨server, false, false, false⟩ [⟨.listEntitiesRequest, []⟩] := by
    refine List.forall_mem_cons.mpr ⟨?_, List.forall_mem_nil _⟩
    rintro response ⟨⟩
  obtain ⟨accepted, -, hreplies, -, hwire⟩ := device_serves_all tagCrates tagCrates_lawful server [[0, 0, 11]] _ _
    rfl rfl false [⟨.listEntitiesRequest, []⟩] listing_traffic (by simp [isDisconnectRequest]) hanswers thermometer
    thermometer_replies (by decide) S h0 hfair
  exact ⟨_, _, S, rfl, rfl, h0, hfair, accepted, hreplies, hwire⟩

end EsphomeNativeApi.TestServerLiveness
