import EsphomeNativeApi.CrashFreedom
import EsphomeNativeApi.Routing
import EsphomeNativeApi.Turns

/-!
What becomes of an `EspHomeServer` whose application drops its receiver: which messages of
the client then end the routing task, and which the connection.
-/

namespace EsphomeNativeApi.ServerFaults

open RustSemantics MessageTable Api Start Channels Runs ReadLoops WriteLoops ClientTraffic Connection
open ReadHistories Histories Applications Safety CrashFreedom Progress Delivery Server Routing Turns

variable {C : Crates} {s : Session} {e : Established C} {a : Application C.proto}

section Buried

/-- The broadcast of `r` finds no receiver. -/
def unheard (before : Broadcast (ProtoMessage C.proto)) (r : ReadLoop C) : ReadLoop C :=
  if r.outgoing.sent.length = before.sent.length then r else { r with outgoing := before }.panic .unwrapErr

theorem unheard_same {before : Broadcast (ProtoMessage C.proto)} {r : ReadLoop C} (h : r.outgoing = before) :
    unheard before r = r := if_pos (by rw [h])

theorem dispatched_unheard (r : ReadLoop C) (message : ProtoMessage C.proto) :
    r.dispatched s false message = unheard r.outgoing (r.dispatched s true message) := by
  unfold ReadLoop.dispatched
  cases s.api.dispatch message with
  | answer response => exact (unheard_same rfl).symm
  | ignore => exact (unheard_same rfl).symm
  | forward m => simp [ReadLoop.broadcast, unheard]

theorem handle_unheard (r : ReadLoop C) (frame : Bytes) :
    r.handle s false frame = unheard r.outgoing (r.handle s true frame) := by
  unfold ReadLoop.handle
  split
  · exact (unheard_same rfl).symm
  · rename_i message k _
    exact dispatched_unheard (r.opened frame message k) message

theorem readEof_unheard (r : ReadLoop C) : r.readEof s false = unheard r.outgoing (r.readEof s true) := by
  unfold ReadLoop.readEof
  split
  · exact (unheard_same rfl).symm
  · exact (unheard_same rfl).symm
  · rename_i frame src _
    exact handle_unheard { r with src := src } frame
  · exact (unheard_same rfl).symm

theorem read_unheard (r : ReadLoop C) : r.read s false = (r.read s true).map (unheard r.outgoing) := by
  unfold ReadLoop.read
  split
  · exact congrArg some (unheard_same rfl).symm
  · exact congrArg some (unheard_same rfl).symm
  · rename_i frame src _
    exact congrArg some (handle_unheard { r with src := src } frame)
  · rename_i src _
    split
    · exact congrArg some (unheard_same rfl).symm
    · split_ifs
      · exact congrArg some (readEof_unheard { r with src := src })
      · rfl

def buried (c : State C) : State C := { c with receiverAlive := false }

@[simp] theorem buried_reader (c : State C) : (buried c).reader = c.reader := rfl

@[simp] theorem buried_writer (c : State C) : (buried c).writer = c.writer := rfl

@[simp] theorem buried_answers (c : State C) : (buried c).answers = c.answers := rfl

@[simp] theorem buried_senderAlive (c : State C) : (buried c).senderAlive = c.senderAlive := rfl

@[simp] theorem buried_receiverAlive (c : State C) : (buried c).receiverAlive = false := rfl

@[simp] theorem buried_hasRoom (c : State C) : (buried c).hasRoom = c.hasRoom := rfl

/-- What `d` is without the receiver that `c` had. -/
def deprived (c d : State C) : State C := buried { d with reader := unheard c.reader.outgoing d.reader }

theorem map_deprived {c d : State C} (h : d.reader.outgoing = c.reader.outgoing) :
    (some d).map (deprived c) = some (buried d) := by
  rw [Option.map_some, deprived, unheard_same h]

theorem buried_recv (s : Session) (c : State C) :
    (buried c).recv s = buried (c.recv s) ∧ (c.recv s).reader = c.reader := by
  simp only [State.recv, buried_answers, buried_senderAlive, buried_reader]
  split
  · exact ⟨rfl, rfl⟩
  · by_cases hsenders : (c.senderAlive || readerHoldsSender c.reader) = true <;>
    · simp only [hsenders, Bool.false_eq_true, ↓reduceIte]
      exact ⟨rfl, trivial⟩

/-- Without its receiver, a connection does the same until it broadcasts. -/
theorem buried_step {c : State C} {action : Action C.proto} (halive : c.receiverAlive = true)
    (hother : action ≠ .receive) (hother' : action ≠ .dropReceiver) :
    (buried c).step s action = (c.step s action).map (deprived c) := by
  cases action with
  | read =>
    simp only [State.step, State.readStep, buried_reader, buried_writer, buried_receiverAlive, buried_hasRoom]
    cases c.reader.state with
    | reading =>
      simp only [halive, read_unheard, Option.map_map]
      rfl
    | answering response =>
      by_cases hrunning : c.writer.running = true
      · by_cases hroom : c.hasRoom = true
        · simp only [hrunning, hroom, ↓reduceIte]
          rw [map_deprived] <;> rfl
        · simp only [hrunning, hroom, Bool.false_eq_true, ↓reduceIte, Option.map_none]
      · simp only [hrunning, Bool.false_eq_true, ↓reduceIte]
        rw [map_deprived] <;> rfl
    | stopping => rw [map_deprived] <;> rfl
    | stopped => rfl
    | panicked p => rfl
  | write count =>
    simp only [State.step, State.writeStep, buried_writer, buried_reader]
    cases c.writer.state with
    | pollCancellation => rw [map_deprived] <;> rfl
    | pollAnswers =>
      obtain ⟨hrecv, hreader⟩ := buried_recv s c
      rw [hrecv, map_deprived (congrArg ReadLoop.outgoing hreader)]
    | writing message pending => rw [map_deprived] <;> rfl
    | stopped => rfl
    | panicked p => rfl
  | send task message =>
    simp only [State.step, buried_senderAlive, buried_writer, buried_hasRoom]
    by_cases hroom : (c.senderAlive && c.writer.running && c.hasRoom) = true
    · simp only [hroom, ↓reduceIte]
      rw [map_deprived] <;> rfl
    · simp only [hroom, Bool.false_eq_true, ↓reduceIte, Option.map_none]
  | receive => exact absurd rfl hother
  | dropReceiver => exact absurd rfl hother'
  | dropSender => rw [State.step, State.step, map_deprived] <;> rfl

theorem deprived_cases (c d : State C) :
    (d.reader.outgoing.sent.length = c.reader.outgoing.sent.length ∧ deprived c d = buried d) ∨
      (d.reader.outgoing.sent.length ≠ c.reader.outgoing.sent.length ∧ panicked (deprived c d).reader) := by
  by_cases h : d.reader.outgoing.sent.length = c.reader.outgoing.sent.length
  · exact .inl ⟨h, by rw [deprived, unheard, if_pos h]⟩
  · refine .inr ⟨h, .unwrapErr, ?_⟩
    rw [deprived, unheard, if_neg h]
    rfl

end Buried

def allows (a : Application C.proto) : ServerAction C.proto → Prop
  | .connection action => a.Allows action
  | .dropReceiver => a.dropsReceiver = true
  | _ => True

def ServerReached (s : Session) (e : Established C) (a : Application C.proto) (c : ServerState C) : Prop :=
  Reaches (ServerState.step s) (allows a) (Server.initial e) c

/-- The application as the inner connection sees it, whose receiver is the routing task's. -/
def keeping {P : Proto} (a : Application P) : Application P := { a with dropsReceiver := false }

/-- No message to forward comes after a `ListEntitiesRequest`. -/
def LastListed (s : Session) {P : Proto} (received : List (ProtoMessage P)) : Prop :=
  received.Pairwise fun request later => isListEntitiesRequest request = true → ¬ Forwarded s later

section Keeps

variable {received : List (ProtoMessage C.proto)} {c d : ServerState C} {action : ServerAction C.proto} {u : State C}

/-- The inner connection is as if it still had its receiver, which the routing task drops
when it panics at a `ListEntitiesRequest`. -/
structure Twin (s : Session) (e : Established C) (a : Application C.proto) (c : ServerState C) (u : State C) :
    Prop where
  reached : Reached s e (keeping a) u
  alive : u.receiverAlive = true
  receiver : c.receiverAlive = false → a.dropsReceiver = true
  same : (c.router = .ok () ∧ c.connection = u) ∨
    (c.router = .error .unwrapErr ∧ c.receiverAlive = false ∧ c.connection = buried u ∧
      ∃ request ∈ messages u.reader, isListEntitiesRequest request = true)

theorem twin_initial : Twin s e a (Server.initial e) (Connection.initial e) :=
  ⟨.refl _, rfl, (fun h => by cases h), .inl ⟨rfl, rfl⟩⟩

theorem alive_kept {c d : State C} {action : Action C.proto} (ht : Transition s c action d)
    (hother : action ≠ .dropReceiver) : d.receiverAlive = c.receiverAlive := by
  cases ht with
  | receiverDropped => exact absurd rfl hother
  | _ => rfl

theorem broadcast_forwards (hC : C.Lawful) (hk : s.encrypted = true → e.encryptCypher.isSome)
    (ht : Traffic C s.encrypted e.decryptCypher (e.src.data ++ e.incoming.flatten) received)
    (hh : Harmless s (keeping a) received) {v : State C} (hu : Reached s e (keeping a) u)
    (hv : Reached s e (keeping a) v) (hmessages : messages u.reader <+: messages v.reader)
    (hsent : v.reader.outgoing.sent.length ≠ u.reader.outgoing.sent.length) :
    ∃ new, messages v.reader = messages u.reader ++ new ∧ ∃ message ∈ new, Forwarded s message := by
  obtain ⟨new, hnew⟩ := hmessages
  refine ⟨new, hnew.symm, ?_⟩
  have hbroadcast : ∀ w, Reached s e (keeping a) w → w.reader.outgoing.sent = broadcastsDue s w.reader := by
    intro w hw
    obtain ⟨hsafe, actions, hhistory⟩ := safe_run hC hk ht hh hw
    exact hhistory.reader.broadcast.2 hsafe.reader.alive
  by_contra hnone
  apply hsent
  rw [hbroadcast v hv, hbroadcast u hu, broadcastsDue, broadcastsDue, ← hnew, List.filterMap_append]
  have hempty : new.filterMap (fun message => (s.api.dispatch message).forward?) = [] := by
    apply List.filterMap_eq_nil_iff.mpr
    intro message hm
    cases hd : s.api.dispatch message with
    | forward forwarded => exact absurd ⟨message, hm, forwarded, hd⟩ hnone
    | _ => rfl
  rw [hempty, List.append_nil]

theorem twin_connected (hC : C.Lawful) (hk : s.encrypted = true → e.encryptCypher.isSome)
    (ht : Traffic C s.encrypted e.decryptCypher (e.src.data ++ e.incoming.flatten) received)
    (hh : Harmless s (keeping a) received) (hlast : a.dropsReceiver = true → LastListed s received)
    (h : Twin s e a c u) {action : Action C.proto} {connection : State C} (hallowed : a.Allows action)
    (hother : action ≠ .receive ∧ action ≠ .dropReceiver) (hstep : c.connection.step s action = some connection) :
    ∃ v, Twin s e a { c with connection := connection } v := by
  have hallowed' : (keeping a).Allows action := by
    cases action with
    | dropReceiver => exact absurd rfl hother.2
    | _ => exact hallowed
  rcases h.same with ⟨hrouter, hconnection⟩ | ⟨hrouter, hdead, hconnection, request, hrequest, hlists⟩
  · rw [hconnection] at hstep
    refine ⟨connection, h.reached.trans (.single action hallowed' hstep), ?_, h.receiver, .inl ⟨hrouter, rfl⟩⟩
    exact (alive_kept (step_cases hC.proto hstep) hother.2).trans h.alive
  · rw [hconnection, buried_step h.alive hother.1 hother.2] at hstep
    obtain ⟨v, hv, rfl⟩ := Option.map_eq_some_iff.mp hstep
    have hreached := h.reached.trans (.single action hallowed' hv)
    have hmessages := messages_step (step_cases hC.proto hv)
    have hsame : deprived u v = buried v := by
      rcases deprived_cases u v with ⟨-, hsame⟩ | ⟨hsent, -⟩
      · exact hsame
      · obtain ⟨new, hnew, message, hm, hforwarded⟩ := broadcast_forwards hC hk ht hh h.reached hreached hmessages hsent
        obtain ⟨rest, -, hreceived⟩ := (safe_run hC hk ht hh hreached).1.reader.rest
        have hpairs := hlast (h.receiver hdead)
        rw [LastListed, hreceived, hnew, List.append_assoc] at hpairs
        exact absurd hforwarded
          ((List.pairwise_append.mp hpairs).2.2 request hrequest message (List.mem_append_left _ hm) hlists)
    rw [hsame]
    refine ⟨v, hreached, ?_, h.receiver,
      .inr ⟨hrouter, hdead, rfl, request, hmessages.subset hrequest, hlists⟩⟩
    exact (alive_kept (step_cases hC.proto hv) hother.2).trans h.alive

theorem route_receiverAlive (c : ServerState C) (result : Received (ProtoMessage C.proto)) :
    (c.route result).receiverAlive = c.receiverAlive := by
  rcases route_cases c result with ⟨message, -, -, hroute⟩ | ⟨-, hroute⟩ | ⟨-, hroute⟩ <;> rw [hroute]

theorem route_survives (c : ServerState C) (result : Received (ProtoMessage C.proto)) :
    ((c.route result).router = c.router ∧ (c.route result).connection = c.connection) ∨
      (c.receiverAlive = false ∧ (∃ message, result = .value message ∧ isListEntitiesRequest message = true) ∧
        c.route result =
          { c with router := .error .unwrapErr, connection := { c.connection with receiverAlive := false } }) := by
  rcases route_cases c result with ⟨message, -, -, hroute⟩ | ⟨-, hroute⟩ | ⟨hdead, hroute⟩
  · exact .inl (by rw [hroute]; exact ⟨rfl, rfl⟩)
  · exact .inl (by rw [hroute]; exact ⟨rfl, rfl⟩)
  · cases result with
    | value message =>
      obtain ⟨kind, body⟩ := message
      by_cases hkind : kind = .listEntitiesRequest
      · exact .inr ⟨hdead, ⟨_, rfl, by simp [isListEntitiesRequest, hkind]⟩, hroute⟩
      · exact .inl (by simp [ServerState.route, hdead, hkind])
    | lagged skipped => exact .inl ⟨rfl, rfl⟩
    | closed => exact .inl ⟨rfl, rfl⟩

theorem received_handled (hP : C.proto.Lawful) {v : State C} (hv : Reached s e a v) {message : ProtoMessage C.proto}
    (hm : .value message ∈ v.reader.outgoing.received) : message ∈ messages v.reader := by
  obtain ⟨actions, -, hrun⟩ := hv
  have hvalue : message ∈ valuesOf v.reader.outgoing.received := List.mem_filterMap.mpr ⟨_, hm, rfl⟩
  have hsent := (receiving_run hP hrun).sound.accounts.sublist.subset hvalue
  exact mem_broadcastsDue ((history_run hP hrun).reader.broadcast.1.subset (List.mem_of_mem_take hsent))

theorem twin_routed (hP : C.proto.Lawful) (h : Twin s e a c u) (hrunning : c.router = .ok ())
    {result : Received (ProtoMessage C.proto)} {outgoing : Broadcast (ProtoMessage C.proto)}
    (hnext : u.reader.outgoing.receive capacity (readerHoldsSender u.reader) = some (result, outgoing)) :
    ∃ v, Twin s e a
      (({ c with connection := { u with reader := { u.reader with outgoing := outgoing } } } : ServerState C).route
        result) v := by
  have hstep := receive_enabled (s := s) h.alive hnext
  have hreached := h.reached.trans (.single .receive trivial hstep)
  refine ⟨_, hreached, h.alive, ?_, ?_⟩
  · rw [route_receiverAlive]
    exact h.receiver
  · rcases route_survives ({ c with connection := { u with reader := { u.reader with outgoing := outgoing } } } :
      ServerState C) result with ⟨hrouter, hconnection⟩ | ⟨hdead, ⟨message, rfl, hlists⟩, hroute⟩
    · exact .inl ⟨hrouter.trans hrunning, hconnection⟩
    · rw [hroute]
      refine .inr ⟨rfl, hdead, rfl, message, received_handled hP hreached ?_, hlists⟩
      have happends : outgoing.received = u.reader.outgoing.received ++ [.value message] :=
        (Broadcast.receives_appends (Broadcast.receive_cases hnext)).2
      rw [happends]
      exact List.mem_append_right _ (List.mem_singleton_self _)

theorem twin_step (hC : C.Lawful) (hk : s.encrypted = true → e.encryptCypher.isSome)
    (ht : Traffic C s.encrypted e.decryptCypher (e.src.data ++ e.incoming.flatten) received)
    (hh : Harmless s (keeping a) received) (hlast : a.dropsReceiver = true → LastListed s received)
    (h : Twin s e a c u) (hallowed : allows a action) (hstep : c.step s action = some d) :
    ∃ v, Twin s e a d v := by
  cases server_step_cases hstep with
  | connected action connection other step => exact twin_connected hC hk ht hh hlast h hallowed other step
  | routed result outgoing running next =>
    rcases h.same with ⟨-, hconnection⟩ | ⟨hrouter, -⟩
    · rw [hconnection] at next ⊢
      exact twin_routed hC.proto h running next
    · cases running.symm.trans hrouter
  | received result outgoing alive next => exact ⟨u, h.reached, h.alive, h.receiver, h.same⟩
  | receiverDropped =>
    refine ⟨u, h.reached, h.alive, fun _ => hallowed, ?_⟩
    rcases h.same with hsame | ⟨hrouter, -, hsame⟩
    · exact .inl hsame
    · exact .inr ⟨hrouter, rfl, hsame⟩

theorem twin_run (hC : C.Lawful) (hk : s.encrypted = true → e.encryptCypher.isSome)
    (ht : Traffic C s.encrypted e.decryptCypher (e.src.data ++ e.incoming.flatten) received)
    (hh : Harmless s (keeping a) received) (hlast : a.dropsReceiver = true → LastListed s received)
    (h : ServerReached s e a c) : ∃ u, Twin s e a c u := by
  obtain ⟨actions, hallowed, hrun⟩ := h
  apply run_invariant (fun d : ServerState C => ∃ u, Twin s e a d u) hrun ⟨_, twin_initial⟩
  rintro action hm d d' ⟨u, hu⟩ hd
  exact twin_step hC hk ht hh hlast hu (hallowed action hm) hd

end Keeps

section Falls

variable {received : List (ProtoMessage C.proto)} {c : ServerState C} {u v : State C}

theorem handles_all (hC : C.Lawful) (hk : s.encrypted = true → e.encryptCypher.isSome)
    (ht : Traffic C s.encrypted e.decryptCypher (e.src.data ++ e.incoming.flatten) received)
    (hh : Harmless s (keeping a) received) (hu : Reached s e (keeping a) u) :
    ∃ v, LoopsReach s u v ∧ messages v.reader = received := by
  have hreading : ∀ w, LoopsReach s u w → w.reader.state = .reading →
      ∃ v, LoopsReach s u v ∧ messages v.reader = received := by
    intro w hw hstate
    obtain ⟨rest, hrest, hreceived⟩ := (safe_run hC hk ht hh (hw.reached hu)).1.reader.rest
    obtain ⟨v, hv, -, hmessages⟩ := handles_rest hC hk ht hh (hw.reached hu) hstate hrest
    exact ⟨v, hw.trans hv, hmessages.trans hreceived.symm⟩
  obtain ⟨hsafe, actions, hhistory⟩ := safe_run hC hk ht hh hu
  have hsignals := hhistory.signals
  cases hr : u.reader.state with
  | reading => exact hreading u (.refl u) hr
  | answering response =>
    obtain ⟨w, hw, hreader⟩ := gives_answer hC hk ht hh hu hr
    exact hreading w hw (by rw [hreader])
  | stopping =>
    rw [Signals, hr] at hsignals
    exact ⟨u, .refl u, handled_all hsafe.reader hsignals⟩
  | stopped =>
    rw [Signals, hr] at hsignals
    exact ⟨u, .refl u, handled_all hsafe.reader hsignals⟩
  | panicked p => exact absurd ⟨p, hr⟩ hsafe.reader.alive

theorem server_loops (h : LoopsReach s u v) (hc : c.connection = u) :
    Reaches (ServerState.step s) (allows a) c { c with connection := v } := by
  obtain ⟨actions, hloops, hrun⟩ := h
  induction actions generalizing c u with
  | nil =>
    cases hrun
    subst hc
    exact .refl c
  | cons action actions ih =>
    obtain ⟨w, hw, hrun⟩ := (run_cons_iff action actions).mp hrun
    obtain ⟨hloop, hloops⟩ := List.forall_mem_cons.mp hloops
    apply Reaches.trans (t := { c with connection := w }) ?_ (ih rfl hloops hrun)
    apply Reaches.single (.connection action)
    · cases action with
      | read => trivial
      | write count => trivial
      | _ => cases hloop
    · subst hc
      cases action with
      | read => exact congrArg (Option.map _) hw
      | write count => exact congrArg (Option.map _) hw
      | _ => cases hloop

theorem buried_crashes (halive : u.receiverAlive = true) (h : LoopsReach s u v) (hP : C.proto.Lawful)
    (hsent : u.reader.outgoing.sent.length < v.reader.outgoing.sent.length) :
    ∃ w, LoopsReach s (buried u) w ∧ panicked w.reader := by
  obtain ⟨actions, hloops, hrun⟩ := h
  induction actions generalizing u with
  | nil =>
    cases hrun
    exact absurd hsent (lt_irrefl _)
  | cons action actions ih =>
    obtain ⟨x, hx, hrun⟩ := (run_cons_iff action actions).mp hrun
    obtain ⟨hloop, hloops⟩ := List.forall_mem_cons.mp hloops
    have hother : action ≠ .receive ∧ action ≠ .dropReceiver := by
      constructor <;>
      · rintro rfl
        cases hloop
    have hstep : (buried u).step s action = some (deprived u x) := by
      rw [buried_step halive hother.1 hother.2, hx]
      rfl
    rcases deprived_cases u x with ⟨hsame, hburied⟩ | ⟨-, hpanicked⟩
    · obtain ⟨w, hw, hpanicked⟩ := ih ((alive_kept (step_cases hP hx) hother.2).trans halive) (hsame ▸ hsent)
        hloops hrun
      rw [hburied] at hstep
      exact ⟨w, .trans (.single action hloop hstep) hw, hpanicked⟩
    · exact ⟨_, .single action hloop hstep, hpanicked⟩

theorem route_listed {request : ProtoMessage C.proto} (hdead : c.receiverAlive = false)
    (hlists : isListEntitiesRequest request = true) : c.route (.value request) =
      { c with router := .error .unwrapErr, connection := { c.connection with receiverAlive := false } } := by
  obtain ⟨kind, body⟩ := request
  obtain rfl : kind = .listEntitiesRequest := of_decide_eq_true hlists
  simp [ServerState.route, hdead]

/-- The routing task comes to the last message, also past those that it lost to a lag. -/
theorem router_falls {before : List (ProtoMessage C.proto)} {request : ProtoMessage C.proto}
    (hlists : isListEntitiesRequest request = true) (hu : Reached s e (keeping a) u) (halive : u.receiverAlive = true)
    (hsent : u.reader.outgoing.sent = before ++ [request]) (hcursor : u.reader.outgoing.cursor ≤ before.length)
    (hconnection : c.connection = u) (hrouter : c.router = .ok ()) (hdead : c.receiverAlive = false) :
    ∃ d v, Reaches (ServerState.step s) (allows a) c d ∧ Reached s e (keeping a) v ∧ v.receiverAlive = true ∧
      v.reader.outgoing.sent = before ++ [request] ∧ d.router = .error .unwrapErr ∧ d.connection = buried v := by
  induction hleft : before.length - u.reader.outgoing.cursor using Nat.strong_induction_on generalizing c u with
  | _ left ih =>
    have hlength : u.reader.outgoing.sent.length = before.length + 1 := by
      rw [hsent, List.length_append, List.length_singleton]
    obtain ⟨result, outgoing, hnext⟩ :=
      Broadcast.receive_isSome (b := u.reader.outgoing) capacity (readerHoldsSender u.reader) (by omega)
    obtain ⟨d, hroute, hconnection, hrouter, hdead⟩ : ∃ d : ServerState C,
        Reaches (ServerState.step s) (allows a) c (d.route result) ∧
          d.connection = { u with reader := { u.reader with outgoing := outgoing } } ∧ d.router = .ok () ∧
          d.receiverAlive = false := by
      refine ⟨{ c with connection := { u with reader := { u.reader with outgoing := outgoing } } }, ?_, rfl, hrouter,
        hdead⟩
      apply Reaches.single .route
      · trivial
      · simp [ServerState.step, hrouter, hconnection, hnext]
    have hreached := hu.trans (.single .receive trivial (receive_enabled (s := s) halive hnext))
    cases Broadcast.receive_cases hnext with
    | value message keeping next =>
      by_cases hm : isListEntitiesRequest message = true
      · rw [route_listed hdead hm, hconnection] at hroute
        exact ⟨_, _, hroute, hreached, halive, hsent, rfl, rfl⟩
      · have hearlier : u.reader.outgoing.cursor ≠ before.length := by
          intro hlast
          rw [hsent, hlast, List.getElem?_concat_length] at next
          cases next
          exact hm hlists
        rcases route_survives d (.value message) with ⟨hrouter', hconnection'⟩ | ⟨-, ⟨listed, hlisted, hl⟩, -⟩
        · obtain ⟨d', v, hd, hv⟩ := ih _ (by simp only; omega) hreached halive hsent (by simp only; omega)
            (hconnection'.trans hconnection) (hrouter'.trans hrouter) ((route_receiverAlive _ _).trans hdead) rfl
          exact ⟨d', v, hroute.trans hd, hv⟩
        · cases hlisted
          exact absurd hl hm
    | lagged behind =>
      have hkeep : capacity = 16 := rfl
      obtain ⟨d', v, hd, hv⟩ := ih _ (by simp only; omega) hreached halive hsent (by simp only; omega) hconnection
        hrouter hdead rfl
      exact ⟨d', v, hroute.trans hd, hv⟩
    | closed ended drained => omega

theorem dispatch_listed {request : ProtoMessage C.proto} (hlists : isListEntitiesRequest request = true) :
    s.api.dispatch request = .forward request := by
  obtain ⟨kind, body⟩ := request
  obtain rfl : kind = .listEntitiesRequest := of_decide_eq_true hlists
  rfl

theorem forwards_split {before after : List (ProtoMessage C.proto)} {request : ProtoMessage C.proto}
    (hlists : isListEntitiesRequest request = true) :
    (before ++ request :: after).filterMap (fun message => (s.api.dispatch message).forward?) =
      before.filterMap (fun message => (s.api.dispatch message).forward?) ++ [request] ++
        after.filterMap fun message => (s.api.dispatch message).forward? := by
  rw [List.filterMap_append, List.filterMap_cons, dispatch_listed hlists]
  simp [Dispatch.forward?]

theorem server_falls (hC : C.Lawful) (hk : s.encrypted = true → e.encryptCypher.isSome)
    (ht : Traffic C s.encrypted e.decryptCypher (e.src.data ++ e.incoming.flatten) received)
    (hh : Harmless s (keeping a) received) (hdrops : a.dropsReceiver = true)
    {before after : List (ProtoMessage C.proto)} {request : ProtoMessage C.proto}
    (hsplit : received = before ++ request :: after) (hlists : isListEntitiesRequest request = true) :
    ∃ c u, ServerReached s e a c ∧ Reached s e (keeping a) u ∧ u.receiverAlive = true ∧
      u.reader.outgoing.sent = before.filterMap (fun message => (s.api.dispatch message).forward?) ++ [request] ∧
      c.router = .error .unwrapErr ∧ c.connection = buried u := by
  obtain ⟨v, hv, hmessages⟩ := handles_all hC hk ht hh (.refl _)
  obtain ⟨hsafe, actions, hhistory⟩ := safe_run hC hk ht hh (hv.reached (.refl _))
  have hsent := hhistory.reader.broadcast.2 hsafe.reader.alive
  rw [broadcastsDue, hmessages, hsplit, forwards_split hlists] at hsent
  -- the broadcast of the request is the last so far
  obtain ⟨u, hu, hcount⟩ := hv.crosses (fun w : State C => w.reader.outgoing.sent.length)
    (n := (before.filterMap fun message => (s.api.dispatch message).forward?).length + 1) (by
      intro action w x hloop hx
      refine (unreceived_step (step_cases hC.proto hx) ?_).2.2.2
      rintro rfl
      cases hloop) (Nat.zero_le _) (by
      simp only [hsent, List.length_append, List.length_singleton]
      omega)
  have hu : LoopsReach s (Connection.initial e) u := hu
  have hreached := hu.reached (.refl (Connection.initial e) : Reached s e (keeping a) _)
  obtain ⟨hsafe, actions, hhistory⟩ := safe_run hC hk ht hh hreached
  have hsent : u.reader.outgoing.sent =
      before.filterMap (fun message => (s.api.dispatch message).forward?) ++ [request] := by
    have hfirst := broadcast_prefix hsafe.reader hhistory
    rw [hsplit, forwards_split hlists] at hfirst
    apply (List.prefix_of_prefix_length_le hfirst (List.prefix_append _ _) ?_).eq_of_length
    · simpa using hcount
    · simpa using hcount.le
  have halive : u.receiverAlive = true := by
    by_contra hdead
    cases hsafe.receiver (Bool.eq_false_iff.mpr hdead)
  have hcursor : u.reader.outgoing.cursor = 0 := loops_cursor hC.proto hu
  have hdropped : ServerReached s e a { Server.initial e with connection := u, receiverAlive := false } :=
    (server_loops hu rfl).trans (.single .dropReceiver hdrops rfl)
  obtain ⟨d, w, hd, hw⟩ := router_falls hlists hreached halive hsent (hcursor ▸ Nat.zero_le _)
    (c := { Server.initial e with connection := u, receiverAlive := false }) rfl rfl rfl
  exact ⟨d, w, hdropped.trans hd, hw⟩

/-- The next message to forward then finds no receiver. -/
theorem connection_falls (hC : C.Lawful) (hk : s.encrypted = true → e.encryptCypher.isSome)
    (ht : Traffic C s.encrypted e.decryptCypher (e.src.data ++ e.incoming.flatten) received)
    (hh : Harmless s (keeping a) received) (hdrops : a.dropsReceiver = true)
    {before after : List (ProtoMessage C.proto)} {request later : ProtoMessage C.proto}
    (hsplit : received = before ++ request :: after) (hlists : isListEntitiesRequest request = true)
    (hlater : later ∈ after) (hforwarded : Forwarded s later) :
    ∃ c, ServerReached s e a c ∧ panicked c.connection.reader := by
  obtain ⟨c, u, hc, hu, halive, hsent, -, hconnection⟩ := server_falls hC hk ht hh hdrops hsplit hlists
  obtain ⟨v, hv, hmessages⟩ := handles_all hC hk ht hh hu
  obtain ⟨hsafe, actions, hhistory⟩ := safe_run hC hk ht hh (hv.reached hu)
  have hmore : u.reader.outgoing.sent.length < v.reader.outgoing.sent.length := by
    obtain ⟨forwarded, hd⟩ := hforwarded
    have hdue : forwarded ∈ after.filterMap fun message => (s.api.dispatch message).forward? :=
      List.mem_filterMap.mpr ⟨later, hlater, by rw [hd]; rfl⟩
    have hpositive := List.length_pos_of_mem hdue
    rw [hhistory.reader.broadcast.2 hsafe.reader.alive, broadcastsDue, hmessages, hsplit, forwards_split hlists,
      hsent]
    simp only [List.length_append]
    omega
  obtain ⟨w, hw, hpanicked⟩ := buried_crashes halive hv hC.proto hmore
  exact ⟨_, hc.trans (server_loops hw hconnection), hpanicked⟩

end Falls

/-- A server that would withstand its client and its application, were it not for the
receiver that the application may drop. -/
theorem server_faults_iff (C : Crates) (hC : C.Lawful) (server : EspHomeServer) (chunks : List Bytes)
    (outcome : StartRun C) (e : Established C) (hstart : server.start C chunks = .ok outcome)
    (he : outcome.result = .ok e) (streamEnds debugEnabled : Bool) (received : List (ProtoMessage C.proto))
    (ht : Traffic C e.encrypted e.decryptCypher (e.src.data ++ e.incoming.flatten) received)
    (a : Application C.proto)
    (hh : Harmless ⟨server.innerApi, e.encrypted, streamEnds, debugEnabled⟩ (keeping a) received) :
    let s : Session := ⟨server.innerApi, e.encrypted, streamEnds, debugEnabled⟩
    ((∀ c, ServerReached s e a c → c.router = .ok ()) ↔
      (a.dropsReceiver = true → ∀ message ∈ received, isListEntitiesRequest message = false)) ∧
    ((∀ c, ServerReached s e a c → ¬ Crashed c.connection) ↔ (a.dropsReceiver = true → LastListed s received)) := by
  intro s
  have hk : s.encrypted = true → e.encryptCypher.isSome := established_keyed hC hstart he
  refine ⟨⟨?_, ?_⟩, ⟨?_, ?_⟩⟩
  · intro hsurvives hdrops message hm
    by_contra hlists
    obtain ⟨before, after, hsplit⟩ := List.append_of_mem hm
    obtain ⟨c, -, hc, -, -, -, hrouter, -⟩ :=
      server_falls hC hk ht hh hdrops hsplit (Bool.not_eq_false _ ▸ hlists)
    cases (hsurvives c hc).symm.trans hrouter
  · intro hnone c hc
    have hlast : a.dropsReceiver = true → LastListed s received := by
      intro hdrops
      apply List.pairwise_of_forall_mem_list
      intro request hm _ _ hlists
      rw [hnone hdrops request hm] at hlists
      cases hlists
    obtain ⟨u, hu⟩ := twin_run hC hk ht hh hlast hc
    rcases hu.same with ⟨hrouter, -⟩ | ⟨-, hdead, -, request, hm, hlists⟩
    · exact hrouter
    · rw [hnone (hu.receiver hdead) request (handled_received (safe_run hC hk ht hh hu.reached).1.reader hm)] at hlists
      cases hlists
  · intro hsound hdrops
    apply List.pairwise_iff_forall_sublist.mpr
    intro request later hpair hlists hforwarded
    obtain ⟨start, after, hreceived, hm, hlater⟩ := List.cons_sublist_iff.mp hpair
    obtain ⟨before, between, rfl⟩ := List.append_of_mem hm
    rw [List.append_assoc, List.cons_append] at hreceived
    obtain ⟨c, hc, hpanicked⟩ := connection_falls hC hk ht hh hdrops hreceived hlists
      (List.mem_append_right between (List.singleton_sublist.mp hlater)) hforwarded
    exact hsound c hc (.inl hpanicked)
  · intro hlast c hc hcrashed
    obtain ⟨u, hu⟩ := twin_run hC hk ht hh hlast hc
    have hsound : ¬ Crashed u := crash_free_of_harmless hC hk ht hh u hu.reached
    rcases hu.same with ⟨-, hconnection⟩ | ⟨-, -, hconnection, -⟩
    · exact hsound (hconnection ▸ hcrashed)
    · rw [hconnection] at hcrashed
      exact hsound hcrashed

theorem server_faults_list_entities_then_ping :
    ∃ outcome e, listEntitiesServer.start tagCrates [[0, 0, 11, 0, 0, 7]] = .ok outcome ∧ outcome.result = .ok e ∧
      ∀ c, ServerReached ⟨listEntitiesServer.innerApi, e.encrypted, false, false⟩ e ⟨fun _ => False, true, false⟩ c →
        ¬ Crashed c.connection := by
  have ht : Traffic tagCrates false none [0, 0, 11, 0, 0, 7] [⟨.listEntitiesRequest, []⟩, ⟨.pingRequest, []⟩] :=
    traffic_emptyFrame 11 _ rfl (traffic_emptyFrame 7 [] rfl (.done _))
  refine ⟨_, _, rfl, rfl, ?_⟩
  refine (server_faults_iff tagCrates tagCrates_lawful listEntitiesServer [[0, 0, 11, 0, 0, 7]] _ _ rfl rfl false false
    [⟨.listEntitiesRequest, []⟩, ⟨.pingRequest, []⟩] ht ⟨fun _ => False, true, false⟩ ?_).2.mpr ?_
  · refine ⟨?_, fun _ h => h.elim, fun _ h => h.elim, ?_, by simp [keeping], by simp [keeping]⟩
    · refine .cons ?_ (.cons (List.forall_mem_nil _) .nil)
      intro later _ hd
      cases hd
    · refine List.forall_mem_cons.mpr ⟨?_, List.forall_mem_cons.mpr ⟨?_, List.forall_mem_nil _⟩⟩
      · rintro response ⟨⟩
      · rintro response ⟨⟩
        exact emptyMessage_encodable .pingResponse
  · intro _
    refine .cons ?_ (.cons (List.forall_mem_nil _) .nil)
    refine List.forall_mem_cons.mpr ⟨?_, List.forall_mem_nil _⟩
    rintro - ⟨forwarded, ⟨⟩⟩

end EsphomeNativeApi.ServerFaults
