import EsphomeNativeApi.Liveness
import EsphomeNativeApi.ServerFaults

/-!
An `EspHomeServer` whose application keeps its receiver: which of the client's messages come
through both of its channels, and that they do in the end.
-/

namespace EsphomeNativeApi.ServerDelivery

open Filter RustSemantics MessageTable Api Start Channels Runs FairSchedules ReadLoops WriteLoops ClientTraffic
open Connection ReadHistories Histories Applications Safety Delivery CrashFreedom StreamMessages Server Routing Turns
open Liveness ServerFaults

variable {C : Crates} {s : Session} {e : Established C} {a : Application C.proto}
  {received : List (ProtoMessage C.proto)} {c d : ServerState C} {action : ServerAction C.proto}

section Holding

/-- The routing task and the application hold their receivers, and all that the one receives
it sends on to the other. -/
structure Holding (s : Session) (e : Established C) (a : Application C.proto)
    (received : List (ProtoMessage C.proto)) (c : ServerState C) : Prop where
  reached : Reached s e a c.connection
  inner : c.connection.receiverAlive = true
  router : c.router = .ok ()
  outer : c.receiverAlive = true
  broadcast : c.connection.reader.outgoing.sent <+: forwarded s received
  sound : c.connection.reader.outgoing.Sound
  routed : c.outgoing.sent = (delivered c).map routedTo
  sound_outer : c.outgoing.Sound

theorem keeping_of_keeps (ha : a.dropsReceiver = false) : keeping a = a := by
  rw [keeping, ← ha]

theorem holding_of_reached (hC : C.Lawful) (hk : s.encrypted = true → e.encryptCypher.isSome)
    (ht : Traffic C s.encrypted e.decryptCypher (e.src.data ++ e.incoming.flatten) received)
    (ha : a.dropsReceiver = false) (hh : Harmless s a received) (h : ServerReached s e a c) :
    Holding s e a received c := by
  have hkeeps : c.receiverAlive = false → False := by
    intro hdead
    obtain ⟨u, hu⟩ := twin_run hC hk ht (keeping_of_keeps ha ▸ hh) (by simp [ha]) h
    cases ha.symm.trans (hu.receiver hdead)
  obtain ⟨u, hu⟩ := twin_run hC hk ht (keeping_of_keeps ha ▸ hh) (by simp [ha]) h
  obtain ⟨hrouter, rfl⟩ := hu.same.resolve_right fun hdead => hkeeps hdead.2.1
  have hreached : Reached s e a c.connection := keeping_of_keeps ha ▸ hu.reached
  obtain ⟨hsafe, past, hhistory⟩ := safe_run hC hk ht hh hreached
  obtain ⟨actions, -, hrun⟩ := h
  have hroutes := routes_run hC.proto hrun
  obtain ⟨inner, hinner⟩ := hroutes.connection
  have houter : c.receiverAlive = true := by
    by_contra hdead
    exact hkeeps (Bool.eq_false_iff.mpr hdead)
  exact ⟨hreached, hu.alive, hrouter, houter, broadcast_prefix hsafe.reader hhistory,
    (receiving_run hC.proto hinner).sound, (hroutes.routed houter).2, hroutes.sound⟩

def heard (c : ServerState C) (outgoing : Broadcast (ProtoMessage C.proto)) : ServerState C :=
  { c with connection := { c.connection with reader := { c.connection.reader with outgoing := outgoing } } }

theorem routed_kept (halive : c.receiverAlive = true) (outgoing : Broadcast (ProtoMessage C.proto))
    (result : Received (ProtoMessage C.proto)) :
    ((heard c outgoing).route result).connection = (heard c outgoing).connection ∧
      ((heard c outgoing).route result).outgoing.received = c.outgoing.received ∧
      ((heard c outgoing).route result).outgoing.cursor = c.outgoing.cursor := by
  rcases route_cases (heard c outgoing) result with ⟨message, -, -, hroute⟩ | ⟨-, hroute⟩ | ⟨hdead, -⟩
  · rw [hroute]
    exact ⟨rfl, rfl, rfl⟩
  · rw [hroute]
    exact ⟨rfl, rfl, rfl⟩
  · cases hdead.symm.trans halive

theorem Holding.routed_length (h : Holding s e a received c) :
    c.outgoing.sent.length ≤ (forwarded s received).length := by
  rw [h.routed, List.length_map]
  apply h.sound.accounts.sublist.length_le.trans
  rw [List.length_take]
  exact (Nat.min_le_right _ _).trans h.broadcast.length_le

theorem Holding.behind (h : Holding s e a received c)
    (hbehind : c.connection.reader.outgoing.cursor < c.connection.reader.outgoing.sent.length) :
    Enabled (ServerState.step s) (fun action => action = .route) c := by
  obtain ⟨result, outgoing, hnext⟩ :=
    Broadcast.receive_isSome capacity (readerHoldsSender c.connection.reader) hbehind
  refine ⟨.route, rfl, ?_⟩
  simp [ServerState.step, h.router, hnext]

theorem Holding.behind_outer (h : Holding s e a received c) (hbehind : c.outgoing.cursor < c.outgoing.sent.length) :
    Enabled (ServerState.step s) (fun action => action = .receive) c := by
  obtain ⟨result, outgoing, hnext⟩ := Broadcast.receive_isSome capacity c.router.isOk hbehind
  refine ⟨.receive, rfl, ?_⟩
  simp [ServerState.step, h.outer, hnext]

/-- Neither the routing task nor the application has lost anything to a lag. -/
def Unlagged (c : ServerState C) : Prop :=
  Lossless c.connection.reader.outgoing.received ∧ Lossless c.outgoing.received

theorem unlagged_step (hP : C.proto.Lawful) (h : Holding s e a received c)
    (hfew : (forwarded s received).length ≤ capacity) (hc : Unlagged c) (hstep : c.step s action = some d) :
    Unlagged d := by
  cases server_step_cases hstep with
  | connected action connection other step =>
    refine ⟨?_, hc.2⟩
    rw [received_kept (step_cases hP step) other.1]
    exact hc.1
  | routed result outgoing running next =>
    obtain ⟨hconnection, hreceived, -⟩ := routed_kept h.outer outgoing result
    refine ⟨?_, hreceived ▸ hc.2⟩
    change Lossless ((heard c outgoing).route result).connection.reader.outgoing.received
    rw [hconnection]
    apply (Broadcast.receives_lossless (Broadcast.receive_cases next)).mpr
    exact ⟨hc.1, (h.broadcast.length_le.trans hfew).trans (Nat.le_add_left _ _)⟩
  | received result outgoing alive next =>
    refine ⟨hc.1, ?_⟩
    apply (Broadcast.receives_lossless (Broadcast.receive_cases next)).mpr
    exact ⟨hc.2, (h.routed_length.trans hfew).trans (Nat.le_add_left _ _)⟩
  | receiverDropped => exact hc

/-- All is forwarded before the routing task has had a turn. -/
theorem all_forwarded (hC : C.Lawful) (hk : s.encrypted = true → e.encryptCypher.isSome)
    (ht : Traffic C s.encrypted e.decryptCypher (e.src.data ++ e.incoming.flatten) received)
    (ha : a.dropsReceiver = false) (hh : Harmless s a received) :
    ∃ c, ServerReached s e a c ∧ c.connection.reader.outgoing.sent = forwarded s received ∧
      c.connection.reader.outgoing.cursor = 0 := by
  obtain ⟨v, hv, hmessages⟩ := handles_all hC hk ht (keeping_of_keeps ha ▸ hh) (.refl _)
  obtain ⟨hsafe, past, hhistory⟩ := safe_run hC hk ht (keeping_of_keeps ha ▸ hh) (hv.reached (.refl _))
  refine ⟨_, server_loops hv rfl, ?_, loops_cursor hC.proto hv⟩
  rw [forwarded, ← hmessages]
  exact hhistory.reader.broadcast.2 hsafe.reader.alive

theorem unlagged_iff (hC : C.Lawful) (hk : s.encrypted = true → e.encryptCypher.isSome)
    (ht : Traffic C s.encrypted e.decryptCypher (e.src.data ++ e.incoming.flatten) received)
    (ha : a.dropsReceiver = false) (hh : Harmless s a received) :
    (∀ c, ServerReached s e a c → Unlagged c) ↔ (forwarded s received).length ≤ capacity := by
  constructor
  · intro hunlagged
    obtain ⟨c, hc, hsent, hcursor⟩ := all_forwarded hC hk ht ha hh
    have hholding := holding_of_reached hC hk ht ha hh hc
    by_contra hmany
    obtain ⟨result, outgoing, hnext⟩ := Broadcast.receive_isSome (b := c.connection.reader.outgoing) capacity
      (readerHoldsSender c.connection.reader) (by rw [hsent, hcursor]; omega)
    have hroute : c.step s .route = some ((heard c outgoing).route result) := by
      simp [ServerState.step, hholding.router, hnext, heard]
    have hlossless := (hunlagged _ (hc.trans (.single .route trivial hroute))).1
    rw [(routed_kept hholding.outer outgoing result).1] at hlossless
    have hkeeps := ((Broadcast.receives_lossless (Broadcast.receive_cases hnext)).mp hlossless).2
    rw [hsent, hcursor] at hkeeps
    omega
  · rintro hfew c ⟨actions, hallowed, hrun⟩
    have hboth : ServerReached s e a c ∧ Unlagged c := by
      apply run_invariant (fun d => ServerReached s e a d ∧ Unlagged d) hrun
      · exact ⟨.refl _, List.forall_mem_nil _, List.forall_mem_nil _⟩
      · rintro action hm u v ⟨hu, hunlagged⟩ hv
        exact ⟨hu.trans (.single action (hallowed action hm) hv),
          unlagged_step hC.proto (holding_of_reached hC hk ht ha hh hu) hfew hunlagged hv⟩
    exact hboth.2

end Holding

section Schedules

structure FairServer (S : Schedule (ServerState.step (C := C) s)) : Prop where
  reads : S.StronglyFair fun action => action = .connection .read
  writes : S.WeaklyFair fun action => ∃ count, 0 < count ∧ action = .connection (.write count)
  routes : S.WeaklyFair fun action => action = .route
  receives : S.WeaklyFair fun action => action = .receive

def connectionAction {P : Proto} : ServerAction P → Option (Action P)
  | .connection action => some action
  | .route => some .receive
  | _ => none

theorem connection_advances (h : Holding s e a received c) (hstep : c.step s action = some d) :
    advance (State.step s) c.connection (connectionAction action) = some d.connection := by
  cases server_step_cases hstep with
  | connected action connection other step => exact step
  | routed result outgoing running next =>
    have hconnection := (routed_kept h.outer outgoing result).1
    exact (receive_enabled (s := s) h.inner next).trans (congrArg some hconnection.symm)
  | received result outgoing alive next => rfl
  | receiverDropped => rfl

def connectionSchedule (S : Schedule (ServerState.step (C := C) s))
    (hholding : ∀ n, Holding s e a received (S.state n)) : Schedule (State.step (C := C) s) :=
  S.project ServerState.connection (fun _ => connectionAction) fun n _ => connection_advances (hholding n)

variable {S : Schedule (ServerState.step (C := C) s)}

theorem connection_fair (hholding : ∀ n, Holding s e a received (S.state n)) (hfair : FairServer S) :
    Fair (connectionSchedule S hholding) where
  reads := by
    apply Schedule.project_stronglyFair hfair.reads
    · rintro n ⟨action, rfl, hsome⟩
      exact ⟨.connection .read, rfl, (Option.isSome_map ..).trans hsome⟩
    · rintro n action rfl
      exact ⟨.read, rfl, rfl⟩
  writes := by
    apply Schedule.project_weaklyFair hfair.writes
    · rintro n ⟨action, ⟨count, hcount, rfl⟩, hsome⟩
      exact ⟨.connection (.write count), ⟨count, hcount, rfl⟩, (Option.isSome_map ..).trans hsome⟩
    · rintro n action ⟨count, hcount, rfl⟩
      exact ⟨.write count, rfl, count, hcount, rfl⟩

/-- No receiver goes back, and one that is behind gets on. -/
theorem cursors_step (hP : C.proto.Lawful) (h : Holding s e a received c) (hstep : c.step s action = some d) :
    (c.connection.reader.outgoing.cursor ≤ d.connection.reader.outgoing.cursor ∧
      (action = .route → c.connection.reader.outgoing.cursor < c.connection.reader.outgoing.sent.length →
        c.connection.reader.outgoing.cursor < d.connection.reader.outgoing.cursor)) ∧
    c.outgoing.cursor ≤ d.outgoing.cursor ∧
      (action = .receive → c.outgoing.cursor < c.outgoing.sent.length → c.outgoing.cursor < d.outgoing.cursor) := by
  cases server_step_cases hstep with
  | connected action connection other step =>
    have hsame := (unreceived_step (step_cases hP step) other.1).2.1
    exact ⟨⟨hsame.ge, fun hroute => by cases hroute⟩, le_refl _, fun hreceive => by cases hreceive⟩
  | routed result outgoing running next =>
    obtain ⟨hconnection, -, hcursor⟩ := routed_kept h.outer outgoing result
    obtain ⟨hle, hlt⟩ := Broadcast.receives_cursor (Broadcast.receive_cases next)
    change (_ ≤ ((heard c outgoing).route result).connection.reader.outgoing.cursor ∧ (_ → _ → _ <
      ((heard c outgoing).route result).connection.reader.outgoing.cursor)) ∧ _
    rw [hconnection]
    exact ⟨⟨hle, fun _ => hlt⟩, hcursor.ge, fun hreceive => by cases hreceive⟩
  | received result outgoing alive next =>
    obtain ⟨hle, hlt⟩ := Broadcast.receives_cursor (Broadcast.receive_cases next)
    exact ⟨⟨le_refl _, fun hroute => by cases hroute⟩, hle, fun _ => hlt⟩
  | receiverDropped => exact ⟨⟨le_refl _, fun hroute => by cases hroute⟩, le_refl _, fun hreceive => by cases hreceive⟩

theorem caught_up_step (hdrained : c.connection.reader.outgoing.sent.length ≤ c.connection.reader.outgoing.cursor)
    (hstep : c.step s action = some d) : d.outgoing.sent = c.outgoing.sent := by
  cases server_step_cases hstep with
  | routed result outgoing running next =>
    cases Broadcast.receive_cases next with
    | value message keeping found =>
      have hlt := (List.getElem?_eq_some_iff.mp found).1
      omega
    | lagged behind => omega
    | closed ended drained => rfl
  | received result outgoing alive next => exact (Broadcast.receives_appends (Broadcast.receive_cases next)).1
  | _ => rfl

theorem routes_all (hP : C.proto.Lawful) (hholding : ∀ n, Holding s e a received (S.state n)) (hfair : FairServer S)
    {N : ℕ} (hsent : ∀ n, N ≤ n → (S.state n).connection.reader.outgoing.sent = forwarded s received) :
    ∀ᶠ n in atTop, (forwarded s received).length ≤ (S.state n).connection.reader.outgoing.cursor := by
  apply S.catches_up hfair.routes (fun c => c.connection.reader.outgoing) N hsent
  · intro n hn hbehind
    apply (hholding n).behind
    rw [hsent n hn]
    exact hbehind
  · intro n action _ hmoves
    exact (cursors_step hP (hholding n) hmoves).1.1
  · intro n action _ hmoves hroute hbehind
    exact (cursors_step hP (hholding n) hmoves).1.2 hroute hbehind

theorem receives_all (hP : C.proto.Lawful) (hholding : ∀ n, Holding s e a received (S.state n)) (hfair : FairServer S)
    {N : ℕ} (hdrained : ∀ n, N ≤ n → (S.state n).connection.reader.outgoing.sent.length ≤
      (S.state n).connection.reader.outgoing.cursor) :
    ∀ᶠ n in atTop, (S.state n).outgoing.sent.length ≤ (S.state n).outgoing.cursor := by
  have hsent : ∀ n, N ≤ n → (S.state n).outgoing.sent = (S.state N).outgoing.sent := by
    apply S.always (fun c => c.outgoing.sent = (S.state N).outgoing.sent) N rfl
    intro n action hn ih hmoves
    exact (caught_up_step (hdrained n hn) hmoves).trans ih
  have hall : ∀ᶠ n in atTop, (S.state N).outgoing.sent.length ≤ (S.state n).outgoing.cursor := by
    apply S.catches_up hfair.receives (fun c => c.outgoing) N hsent
    · intro n hn hbehind
      apply (hholding n).behind_outer
      rw [hsent n hn]
      exact hbehind
    · intro n action _ hmoves
      exact (cursors_step hP (hholding n) hmoves).2.1
    · intro n action _ hmoves hreceive hbehind
      exact (cursors_step hP (hholding n) hmoves).2.2 hreceive hbehind
  apply (hall.and (eventually_ge_atTop N)).mono
  rintro n ⟨hreached, hn⟩
  rw [hsent n hn]
  exact hreached

end Schedules

/-- Every message has come to its side: the requests are answered, the others have come
through both channels, up to those that a lag has counted. -/
structure Delivered (s : Session) (received : List (ProtoMessage C.proto)) (c : ServerState C) : Prop where
  answered : acceptedFrom c.connection .readLoop =
    received.filterMap fun message => (s.api.dispatch message).answer?
  arrived : Accounts c.connection.reader.outgoing.received (forwarded s received)
  handed : Accounts c.outgoing.received ((delivered c).map routedTo)
  all : (forwarded s received).length ≤ capacity →
    valuesOf c.outgoing.received = (forwarded s received).map routedTo

theorem delivered_of_drained (h : Holding s e a received c) (ht : messages c.connection.reader = received)
    (hanswered : acceptedFrom c.connection .readLoop = answersDue s c.connection.reader)
    (hsent : c.connection.reader.outgoing.sent = forwarded s received)
    (hrouted : (forwarded s received).length ≤ c.connection.reader.outgoing.cursor)
    (hreceived : c.outgoing.sent.length ≤ c.outgoing.cursor)
    (hunlagged : (forwarded s received).length ≤ capacity → Unlagged c) : Delivered s received c := by
  have harrived := h.sound.accounts
  rw [hsent, List.take_of_length_le hrouted] at harrived
  have hhanded := h.sound_outer.accounts
  rw [List.take_of_length_le hreceived, h.routed] at hhanded
  refine ⟨?_, harrived, hhanded, ?_⟩
  · rw [hanswered, answersDue, ht]
  · intro hfew
    obtain ⟨hinner, houter⟩ := hunlagged hfew
    rw [hhanded.valuesOf_eq houter, delivered, harrived.valuesOf_eq hinner]

/-- A server with a client that sends whole messages and stays, and with an application that
keeps its receiver. -/
theorem server_delivers (C : Crates) (hC : C.Lawful) (server : EspHomeServer) (chunks : List Bytes)
    (outcome : StartRun C) (e : Established C) (hstart : server.start C chunks = .ok outcome)
    (he : outcome.result = .ok e) (debugEnabled : Bool) (received : List (ProtoMessage C.proto))
    (ht : Traffic C e.encrypted e.decryptCypher (e.src.data ++ e.incoming.flatten) received)
    (hstays : ∀ message ∈ received, isDisconnectRequest message = false) (a : Application C.proto)
    (ha : a.dropsReceiver = false) (hsends : ∀ message, a.sends message → isDisconnectResponse message = false)
    (hh : Harmless ⟨server.innerApi, e.encrypted, false, debugEnabled⟩ a received) :
    let s : Session := ⟨server.innerApi, e.encrypted, false, debugEnabled⟩
    ((∀ c, ServerReached s e a c → Unlagged c) ↔ (forwarded s received).length ≤ capacity) ∧
    ∀ S : Schedule (ServerState.step (C := C) s), S.state 0 = Server.initial e →
      (∀ n action, S.action n = some action → allows a action) → FairServer S →
      ∀ᶠ n in atTop, Delivered s received (S.state n) := by
  intro s
  have hk : s.encrypted = true → e.encryptCypher.isSome := established_keyed hC hstart he
  have hunlagged := unlagged_iff hC hk ht ha hh
  refine ⟨hunlagged, ?_⟩
  intro S h0 hallowed hfair
  have hreached : ∀ n, ServerReached s e a (S.state n) := by
    intro n
    rw [ServerReached, ← h0]
    exact S.reaches hallowed n
  have hholding : ∀ n, Holding s e a received (S.state n) :=
    fun n => holding_of_reached hC hk ht ha hh (hreached n)
  have hkeeps : ∀ n, readerHoldsSender (S.state n).connection.reader = true ∧
      (S.state n).connection.writer.running = true := by
    intro n
    obtain ⟨hsafe, past, hhistory⟩ := safe_run hC hk ht hh (hholding n).reached
    exact keeps_running hsafe hhistory rfl hstays hsends
  have hT0 : (connectionSchedule S hholding).state 0 = Connection.initial e := congrArg ServerState.connection h0
  obtain ⟨hsettled, -⟩ := serves hC hT0 (connection_fair hholding hfair) (fun n => (hkeeps n).1) fun n => (hkeeps n).2
  have hsettled : ∀ᶠ n in atTop, messages (S.state n).connection.reader = received ∧
      acceptedFrom (S.state n).connection .readLoop = answersDue s (S.state n).connection.reader ∧
      (S.state n).connection.reader.outgoing.sent = forwarded s received := by
    apply hsettled.mono
    rintro n ⟨hmessages, hanswered, hbroadcast⟩
    have hmessages : messages (S.state n).connection.reader = received := hmessages.trans (traffic_carried ht)
    refine ⟨hmessages, hanswered, ?_⟩
    rw [forwarded, ← hmessages]
    exact hbroadcast
  obtain ⟨N, hN⟩ := eventually_atTop.mp hsettled
  have hrouted := routes_all hC.proto hholding hfair fun n hn => (hN n hn).2.2
  obtain ⟨M, hM⟩ := eventually_atTop.mp (hsettled.and hrouted)
  have hreceived := receives_all hC.proto hholding hfair (N := M) fun n hn => by
    rw [(hM n hn).1.2.2]
    exact (hM n hn).2
  apply ((hsettled.and hrouted).and hreceived).mono
  rintro n ⟨⟨⟨hmessages, hanswered, hsent⟩, hrouted⟩, hreceived⟩
  exact delivered_of_drained (hholding n) hmessages hanswered hsent hrouted hreceived
    fun hfew => hunlagged.mpr hfew _ (hreached n)

def isIdleServer (s : Session) (c : ServerState C) : Bool :=
  isIdle s c.connection &&
    ((c.connection.reader.outgoing.next capacity (readerHoldsSender c.connection.reader)).isNone &&
      (c.outgoing.next capacity c.router.isOk).isNone)

theorem server_idles (h : isIdleServer s c = true) :
    ∃ S : Schedule (ServerState.step (C := C) s), S.state 0 = c ∧ FairServer S ∧
      ∀ n action, S.action n = some action → action = .connection (.write 1) := by
  obtain ⟨hidle, hothers⟩ := (Bool.and_eq_true _ _).mp h
  obtain ⟨hroute, hreceive⟩ := (Bool.and_eq_true _ _).mp hothers
  have hroute := Option.isNone_iff_eq_none.mp hroute
  have hreceive := Option.isNone_iff_eq_none.mp hreceive
  obtain ⟨polled, hout, hback, hreader, hreceiver⟩ := idle_polls hidle
  have hout' : c.step s (.connection (.write 1)) = some { c with connection := polled } :=
    congrArg (Option.map _) hout
  have hback' : ServerState.step s { c with connection := polled } (.connection (.write 1)) = some c := by
    rw [ServerState.step, hback]
    · rfl
    · rintro ⟨⟩
    · rintro ⟨⟩
  obtain ⟨S, h0, htakes, hdisabled, hactions⟩ := Schedule.exists_alternating hout' hback'
  refine ⟨S, h0, ⟨(hdisabled _ ?_ ?_).1, htakes _ ⟨1, one_pos, rfl⟩ ⟨1, one_pos, rfl⟩, (hdisabled _ ?_ ?_).2,
    (hdisabled _ ?_ ?_).2⟩, fun n action haction => (hactions n action haction).elim id id⟩
  · rintro ⟨action, rfl, hsome⟩
    simp [ServerState.step, idle_unread hidle rfl rfl] at hsome
  · rintro ⟨action, rfl, hsome⟩
    simp [ServerState.step, idle_unread hidle hreader hreceiver] at hsome
  · rintro ⟨action, rfl, hsome⟩
    cases hrouter : c.router <;> simp [ServerState.step, Broadcast.receive, hrouter, hroute] at hsome
  · rintro ⟨action, rfl, hsome⟩
    cases hrouter : c.router <;> simp [ServerState.step, Broadcast.receive, hrouter, hreader, hroute] at hsome
  all_goals
    rintro ⟨action, rfl, hsome⟩
    simp [ServerState.step, Broadcast.receive, hreceive] at hsome

theorem server_delivers_listing :
    ∃ outcome e, ∃ S : Schedule (ServerState.step (C := tagCrates) ⟨listEntitiesServer.innerApi, e.encrypted, false,
        false⟩), listEntitiesServer.start tagCrates [[0, 0, 11, 0, 0, 20]] = .ok outcome ∧
      outcome.result = .ok e ∧ S.state 0 = Server.initial e ∧ FairServer S ∧
      ∀ᶠ n in atTop, valuesOf (S.state n).outgoing.received =
        [⟨.listEntitiesDoneResponse, []⟩, ⟨.subscribeStatesRequest, []⟩] := by
  have ht : Traffic tagCrates false none [0, 0, 11, 0, 0, 20]
      [⟨.listEntitiesRequest, []⟩, ⟨.subscribeStatesRequest, []⟩] :=
    traffic_emptyFrame 11 _ rfl (traffic_emptyFrame 20 [] rfl (.done _))
  have hh : Harmless (C := tagCrates) ⟨listEntitiesServer.innerApi, false, false, false⟩ ⟨fun _ => False, false, false⟩
      [⟨.listEntitiesRequest, []⟩, ⟨.subscribeStatesRequest, []⟩] := by
    refine ⟨?_, fun _ h => h.elim, fun _ h => h.elim, ?_, by simp, by simp⟩
    · refine .cons ?_ (.cons (List.forall_mem_nil _) .nil)
      intro later _ hd
      cases hd
    · refine List.forall_mem_cons.mpr ⟨?_, List.forall_mem_cons.mpr ⟨?_, List.forall_mem_nil _⟩⟩ <;>
        rintro response ⟨⟩
  obtain ⟨c, hrun, hidle⟩ : ∃ c, run (ServerState.step ⟨listEntitiesServer.innerApi, false, false, false⟩)
      (Server.initial (plaintextStart [[0, 0, 11, 0, 0, 20]]))
      [.connection .read, .connection .read, .connection .read, .route, .route, .receive, .receive] = some c ∧
      isIdleServer ⟨listEntitiesServer.innerApi, false, false, false⟩ c = true := run_check (by decide +kernel)
  obtain ⟨T, rfl, hfair, hactions⟩ := server_idles hidle
  obtain ⟨S, h0, hends, hfrom⟩ := T.exists_prepend hrun
  have hfair : FairServer S := ⟨hends.stronglyFair hfair.reads, hends.weaklyFair hfair.writes,
    hends.weaklyFair hfair.routes, hends.weaklyFair hfair.receives⟩
  refine ⟨⟨[], false, .ok (plaintextStart _)⟩, plaintextStart [[0, 0, 11, 0, 0, 20]], S, rfl, rfl, h0, hfair, ?_⟩
  refine ((server_delivers tagCrates tagCrates_lawful listEntitiesServer [[0, 0, 11, 0, 0, 20]] _ _ rfl rfl false
    [⟨.listEntitiesRequest, []⟩, ⟨.subscribeStatesRequest, []⟩] ht (by simp [isDisconnectRequest])
    ⟨fun _ => False, false, false⟩ rfl (fun _ h => h.elim) hh).2 S h0 ?_ hfair).mono fun n hn => hn.all (by decide)
  intro n action haction
  rcases hfrom n action haction with hm | ⟨m, hm⟩
  · simp only [List.mem_cons, List.not_mem_nil, or_false] at hm
    rcases hm with rfl | rfl | rfl | rfl | rfl | rfl | rfl <;> trivial
  · rw [hactions m action hm]
    trivial

end EsphomeNativeApi.ServerDelivery
