import EsphomeNativeApi.Delivery
import EsphomeNativeApi.EspHomeServer

/-!
The routing task of `EspHomeServer`: what it sends to the client and to the application
for the messages that it receives, and when it ends.
-/

namespace EsphomeNativeApi.Routing

open RustSemantics MessageTable Api Start Channels Runs ReadLoops Connection ReadHistories Histories
open Delivery Server

variable {C : Crates} {s : Session} {e : Established C}

section Senders

variable {c d : State C}

def fromSenders (c : State C) : List (ProtoMessage C.proto) :=
  c.answers.accepted.filterMap fun entry => if entry.1 = .readLoop then none else some entry.2

def sent? {P : Proto} : Action P → Option (ProtoMessage P)
  | .send _ message => some message
  | _ => none

theorem fromSenders_step {action : Action C.proto} (ht : Transition s c action d) :
    fromSenders d = fromSenders c ++ (sent? action).toList := by
  cases ht with
  | answered response answering running room => simp [fromSenders, sent?]
  | took count producer message answers polling popped =>
    simp [fromSenders, sent?, (Mpsc.pop_some popped).2.2]
  | sent task message alive running room => simp [fromSenders, sent?]
  | _ => exact (List.append_nil _).symm

theorem received_kept {action : Action C.proto} (ht : Transition s c action d) (hother : action ≠ .receive) :
    d.reader.outgoing.received = c.reader.outgoing.received := by
  rcases outgoing_cases ht with ⟨hreceive, -⟩ | ⟨-, hsame | ⟨-, hsame | ⟨message, hsame⟩⟩⟩
  · exact absurd hreceive hother
  · rw [hsame]
  · rw [hsame]
  · rw [hsame]
    rfl

end Senders

section Steps

inductive ServerTransition (s : Session) (c : ServerState C) :
    ServerAction C.proto → ServerState C → Prop where
  | connected (action : Action C.proto) (connection : State C)
      (other : action ≠ .receive ∧ action ≠ .dropReceiver)
      (step : c.connection.step s action = some connection) :
      ServerTransition s c (.connection action) { c with connection := connection }
  | routed (result : Received (ProtoMessage C.proto)) (outgoing : Broadcast (ProtoMessage C.proto))
      (running : c.router = .ok ())
      (next : c.connection.reader.outgoing.receive capacity (readerHoldsSender c.connection.reader) =
        some (result, outgoing)) :
      ServerTransition s c .route
        (({ c with connection := { c.connection with reader := { c.connection.reader with outgoing := outgoing } } } :
          ServerState C).route result)
  | received (result : Received (ProtoMessage C.proto)) (outgoing : Broadcast (ProtoMessage C.proto))
      (alive : c.receiverAlive = true)
      (next : c.outgoing.receive capacity c.router.isOk = some (result, outgoing)) :
      ServerTransition s c .receive { c with outgoing := outgoing }
  | receiverDropped : ServerTransition s c .dropReceiver { c with receiverAlive := false }

variable {c d : ServerState C} {action : ServerAction C.proto}

theorem server_step_cases (h : c.step s action = some d) : ServerTransition s c action d := by
  cases action with
  | connection action =>
    have hother : action ≠ .receive ∧ action ≠ .dropReceiver := by
      constructor <;>
      · rintro rfl
        cases h
    have hstep : (c.connection.step s action).map (fun connection => { c with connection := connection }) =
        some d := by
      cases action with
      | receive => cases h
      | dropReceiver => cases h
      | _ => exact h
    obtain ⟨connection, hconnection, rfl⟩ := Option.map_eq_some_iff.mp hstep
    exact .connected action connection hother hconnection
  | route =>
    rw [ServerState.step] at h
    split at h
    · rename_i hrouter
      obtain ⟨⟨result, outgoing⟩, hnext, rfl⟩ := Option.map_eq_some_iff.mp h
      exact .routed result outgoing hrouter hnext
    · cases h
  | receive =>
    rw [ServerState.step] at h
    split_ifs at h with halive
    obtain ⟨⟨result, outgoing⟩, hnext, rfl⟩ := Option.map_eq_some_iff.mp h
    exact .received result outgoing halive hnext
  | dropReceiver =>
    cases h
    exact .receiverDropped

def isListEntitiesRequest {P : Proto} (message : ProtoMessage P) : Bool :=
  message.kind = .listEntitiesRequest

def listEntitiesDone (P : Proto) : ProtoMessage P := ⟨.listEntitiesDoneResponse, P.listEntitiesDoneResponse⟩

def routedTo {P : Proto} (message : ProtoMessage P) : ProtoMessage P :=
  if isListEntitiesRequest message then listEntitiesDone P else message

theorem route_value (halive : c.receiverAlive = true) (message : ProtoMessage C.proto) :
    c.route (.value message) = { c with outgoing := c.outgoing.send (routedTo message) } := by
  obtain ⟨kind, body⟩ := message
  by_cases hkind : kind = .listEntitiesRequest
  · subst hkind
    simp [ServerState.route, halive, routedTo, isListEntitiesRequest, listEntitiesDone]
  · simp [ServerState.route, halive, routedTo, isListEntitiesRequest, hkind]

theorem route_cases (c : ServerState C) (result : Received (ProtoMessage C.proto)) :
    (∃ message, result.value? = some message ∧ c.receiverAlive = true ∧
        c.route result = { c with outgoing := c.outgoing.send (routedTo message) }) ∨
      ((c.receiverAlive = true → result.value? = none) ∧ c.route result = c) ∨
      c.receiverAlive = false ∧ c.route result =
        { c with router := .error .unwrapErr, connection := { c.connection with receiverAlive := false } } := by
  cases result with
  | value message =>
    by_cases halive : c.receiverAlive = true
    · exact .inl ⟨message, rfl, halive, route_value halive message⟩
    · obtain ⟨kind, body⟩ := message
      by_cases hkind : kind = .listEntitiesRequest
      · subst hkind
        exact .inr (.inr ⟨Bool.eq_false_iff.mpr halive, by simp [ServerState.route, halive]⟩)
      · exact .inr (.inl ⟨fun h => absurd h halive, by simp [ServerState.route, halive, hkind]⟩)
  | lagged skipped => exact .inr (.inl ⟨fun _ => rfl, rfl⟩)
  | closed => exact .inr (.inl ⟨fun _ => rfl, rfl⟩)

end Steps

section Routes

def delivered (c : ServerState C) : List (ProtoMessage C.proto) :=
  valuesOf c.connection.reader.outgoing.received

def sentBy {P : Proto} (actions : List (ServerAction P)) : List (ProtoMessage P) :=
  actions.filterMap fun action =>
    match action with
    | .connection action => sent? action
    | _ => none

variable {actions : List (ServerAction C.proto)} {c d : ServerState C}

/-- The inner connection runs as one of its own. What its routing task receives goes to the
application, and its senders are the application's. -/
structure Routes (s : Session) (e : Established C) (actions : List (ServerAction C.proto))
    (c : ServerState C) : Prop where
  connection : ∃ inner, run (State.step s) (Connection.initial e) inner = some c.connection
  receiver : c.router = .ok () → c.connection.receiverAlive = true
  senders : fromSenders c.connection = sentBy actions
  sound : c.outgoing.Sound
  routed : c.receiverAlive = true → c.router = .ok () ∧ c.outgoing.sent = (delivered c).map routedTo

theorem routes_initial : Routes s e [] (initial e) where
  connection := ⟨[], rfl⟩
  receiver _ := rfl
  senders := rfl
  sound := Broadcast.sound_empty
  routed _ := ⟨rfl, rfl⟩

theorem sentBy_append (before after : List (ServerAction C.proto)) :
    sentBy (before ++ after) = sentBy before ++ sentBy after := List.filterMap_append

theorem sentBy_silent (actions : List (ServerAction C.proto)) {action : ServerAction C.proto}
    (h : sentBy [action] = []) : sentBy (actions ++ [action]) = sentBy actions := by
  rw [sentBy_append, h, List.append_nil]

theorem connection_connected (hP : C.proto.Lawful) (h : Routes s e actions c) {action : Action C.proto}
    {connection : State C} (hother : action ≠ .receive ∧ action ≠ .dropReceiver)
    (hstep : c.connection.step s action = some connection) :
    Routes s e (actions ++ [.connection action]) { c with connection := connection } := by
  have ht := step_cases hP hstep
  obtain ⟨inner, hinner⟩ := h.connection
  refine ⟨⟨_, run_snoc hinner hstep⟩, ?_, ?_, h.sound, ?_⟩
  · intro hrouter
    have halive := h.receiver hrouter
    cases ht with
    | receiverDropped => exact absurd rfl hother.2
    | _ => exact halive
  · rw [fromSenders_step ht, h.senders, sentBy_append]
    cases action <;> rfl
  · intro halive
    obtain ⟨hrouter, hsent⟩ := h.routed halive
    exact ⟨hrouter, by rw [hsent, delivered, delivered, received_kept ht hother.1]⟩

theorem routes_routed (h : Routes s e actions c) {result : Received (ProtoMessage C.proto)}
    {outgoing : Broadcast (ProtoMessage C.proto)} (running : c.router = .ok ())
    (next : c.connection.reader.outgoing.receive capacity (readerHoldsSender c.connection.reader) =
      some (result, outgoing)) :
    Routes s e (actions ++ [.route])
      (({ c with connection := { c.connection with reader := { c.connection.reader with outgoing := outgoing } } } :
        ServerState C).route result) := by
  set u : ServerState C :=
    { c with connection := { c.connection with reader := { c.connection.reader with outgoing := outgoing } } }
  have hstep : c.connection.step s .receive = some u.connection := by
    rw [State.step, if_pos (h.receiver running), next]
    rfl
  obtain ⟨inner, hinner⟩ := h.connection
  have hreceived := run_snoc hinner hstep
  have hdelivered : delivered u = delivered c ++ result.value?.toList := by
    have happends : outgoing.received = c.connection.reader.outgoing.received ++ [result] :=
      (Broadcast.receives_appends (Broadcast.receive_cases next)).2
    change valuesOf outgoing.received = _
    rw [happends, valuesOf_append]
    cases result <;> rfl
  have hsenders : fromSenders u.connection = sentBy (actions ++ [.route]) :=
    h.senders.trans (sentBy_silent actions rfl).symm
  rcases route_cases u result with ⟨message, hmessage, halive, hroute⟩ | ⟨hnone, hroute⟩ | ⟨hdead, hroute⟩
  · rw [hroute]
    refine ⟨⟨_, hreceived⟩, h.receiver, hsenders, Broadcast.sound_send h.sound _, ?_⟩
    intro _
    obtain ⟨hrouter, hsent⟩ := h.routed halive
    refine ⟨hrouter, ?_⟩
    have hgrown : delivered u = delivered c ++ [message] := by rw [hdelivered, hmessage]; rfl
    change c.outgoing.sent ++ [routedTo message] = (delivered u).map routedTo
    rw [hgrown, List.map_append, hsent]
    rfl
  · rw [hroute]
    refine ⟨⟨_, hreceived⟩, h.receiver, hsenders, h.sound, ?_⟩
    intro halive
    rw [hdelivered, hnone halive, Option.toList_none, List.append_nil]
    exact h.routed halive
  · rw [hroute]
    -- the task that panics drops the receiver of the inner connection
    have hdrop : u.connection.step s .dropReceiver = some { u.connection with receiverAlive := false } := rfl
    refine ⟨⟨_, run_snoc hreceived hdrop⟩, ?_, hsenders, h.sound, ?_⟩
    · intro hrouter
      cases hrouter
    · intro halive
      cases hdead.symm.trans halive

theorem routes_step (hP : C.proto.Lawful) (h : Routes s e actions c) {action : ServerAction C.proto}
    (hstep : c.step s action = some d) : Routes s e (actions ++ [action]) d := by
  cases server_step_cases hstep with
  | connected action connection other step => exact connection_connected hP h other step
  | routed result outgoing running next => exact routes_routed h running next
  | received result outgoing alive next =>
    have hreceives := Broadcast.receive_cases next
    refine ⟨h.connection, h.receiver, h.senders.trans (sentBy_silent actions rfl).symm,
      Broadcast.sound_receive h.sound hreceives, ?_⟩
    intro halive
    obtain ⟨hrouter, hsent⟩ := h.routed halive
    exact ⟨hrouter, (Broadcast.receives_appends hreceives).1.trans hsent⟩
  | receiverDropped =>
    exact ⟨h.connection, h.receiver, h.senders.trans (sentBy_silent actions rfl).symm, h.sound,
      fun halive => nomatch halive⟩

theorem routes_run (hP : C.proto.Lawful) (h : run (ServerState.step s) (initial e) actions = some c) :
    Routes s e actions c :=
  run_history (Routes s e) h routes_initial fun _ _ _ _ _ hu hv => routes_step hP hu hv

/-- Each `ListEntitiesRequest` is answered to the client, and all other messages go to the
application. -/
structure RoutesRight (actions : List (ServerAction C.proto)) (c : ServerState C) : Prop where
  answered : (fromSenders c.connection).Perm (sentBy actions ++
    ((delivered c).filter isListEntitiesRequest).map fun _ => listEntitiesDone C.proto)
  forwarded : c.outgoing.sent = (delivered c).filter fun message => !isListEntitiesRequest message
  received : Lossless c.outgoing.received → valuesOf c.outgoing.received =
    ((delivered c).filter fun message => !isListEntitiesRequest message).take c.outgoing.cursor
  from_client : ∀ message ∈ valuesOf c.outgoing.received, message ∈ messages c.connection.reader

theorem delivered_handled (hP : C.proto.Lawful) (h : Routes s e actions c) :
    ∀ message ∈ delivered c, message ∈ messages c.connection.reader := by
  obtain ⟨inner, hinner⟩ := h.connection
  intro message hm
  have hsent := (receiving_run hP hinner).sound.accounts.sublist.subset hm
  have hdue := (history_run hP hinner).reader.broadcast.1.subset (List.mem_of_mem_take hsent)
  exact mem_broadcastsDue hdue

theorem routes_right_iff (C : Crates) (hC : C.Lawful) (server : EspHomeServer) (e : Established C)
    (streamEnds debugEnabled : Bool) (actions : List (ServerAction C.proto)) (c : ServerState C)
    (h : run (ServerState.step ⟨server.innerApi, e.encrypted, streamEnds, debugEnabled⟩) (initial e) actions =
      some c)
    (halive : c.receiverAlive = true) :
    RoutesRight actions c ↔ ∀ message ∈ delivered c, isListEntitiesRequest message = false := by
  have hroutes := routes_run hC.proto h
  constructor
  · intro hright message hm
    -- the routing task has sent nothing to the client
    have hlength := hright.answered.length_eq
    rw [hroutes.senders, List.length_append, List.length_map] at hlength
    have hnone : (delivered c).filter isListEntitiesRequest = [] := by
      apply List.length_eq_zero_iff.mp
      omega
    exact Bool.eq_false_iff.mpr (List.filter_eq_nil_iff.mp hnone message hm)
  · intro hother
    have hnone : (delivered c).filter isListEntitiesRequest = [] := by
      apply List.filter_eq_nil_iff.mpr
      intro message hm
      simp [hother message hm]
    have hall : ((delivered c).filter fun message => !isListEntitiesRequest message) = delivered c := by
      apply List.filter_eq_self.mpr
      intro message hm
      simp [hother message hm]
    have hsent : c.outgoing.sent = delivered c := by
      rw [(hroutes.routed halive).2, ← List.map_id (delivered c), List.map_map]
      apply List.map_congr_left
      intro message hm
      simp [routedTo, hother message hm]
    have haccounts := hroutes.sound.accounts
    rw [hsent] at haccounts
    constructor
    · rw [hroutes.senders, hnone, List.map_nil, List.append_nil]
    · rw [hall, hsent]
    · rw [hall]
      exact haccounts.valuesOf_eq
    · intro message hm
      apply delivered_handled hC.proto hroutes
      exact List.mem_of_mem_take (haccounts.sublist.subset hm)

def listEntitiesServer : EspHomeServer :=
  { name := "test-device", componentsByKey := [(0, .binarySensor ⟨"door"⟩)] }

def listEntitiesActions : List (ServerAction tagCrates.proto) := [.connection .read, .connection .read, .route]

theorem list_entities_unanswered :
    ∃ outcome e c, listEntitiesServer.start tagCrates [[0, 0, 11]] = .ok outcome ∧ outcome.result = .ok e ∧
      run (ServerState.step ⟨listEntitiesServer.innerApi, e.encrypted, false, false⟩) (initial e)
        listEntitiesActions = some c ∧
      c.receiverAlive = true ∧ ¬ RoutesRight listEntitiesActions c := by
  have hrouted : ∃ c, run (ServerState.step ⟨listEntitiesServer.innerApi, false, false, false⟩)
      (initial ⟨false, .empty, [[0, 0, 11]], none, none⟩) listEntitiesActions = some c ∧
      c.receiverAlive = true ∧ (fromSenders c.connection).length = 0 ∧
        ((delivered c).filter isListEntitiesRequest).length = 1 :=
    run_check (by decide +kernel)
  obtain ⟨c, hrun, halive, hnone, hone⟩ := hrouted
  refine ⟨_, _, c, start_plaintext rfl, rfl, hrun, halive, ?_⟩
  intro hright
  have hlength := hright.answered.length_eq
  rw [List.length_append, List.length_map, hone, hnone] at hlength
  omega

theorem routes_right_subscribe :
    ∃ c, run (ServerState.step ⟨listEntitiesServer.innerApi, false, false, false⟩)
        (initial ⟨false, .empty, [[0, 0, 20]], none, none⟩) listEntitiesActions = some c ∧
      RoutesRight listEntitiesActions c := by
  have hrouted : ∃ c, run (ServerState.step ⟨listEntitiesServer.innerApi, false, false, false⟩)
      (initial ⟨false, .empty, [[0, 0, 20]], none, none⟩) listEntitiesActions = some c ∧
      c.receiverAlive = true ∧ ∀ message ∈ delivered c, isListEntitiesRequest message = false :=
    run_check (by decide +kernel)
  obtain ⟨c, hrun, halive, hother⟩ := hrouted
  exact ⟨c, hrun, (routes_right_iff tagCrates tagCrates_lawful listEntitiesServer
    ⟨false, .empty, [[0, 0, 20]], none, none⟩ false false listEntitiesActions c hrun halive).mpr hother⟩

end Routes

section Ends

variable {c : ServerState C} {results : List (Received (ProtoMessage C.proto))} {alive : ℕ → Bool}

structure Exhausted (c : ServerState C) : Prop where
  running : c.router = .ok ()
  ended : readerHoldsSender c.connection.reader = false
  drained : c.connection.reader.outgoing.sent.length ≤ c.connection.reader.outgoing.cursor

theorem exhausted_step {s : Session} (h : Exhausted c) :
    ∃ d, c.step s .route = some d ∧ Exhausted d ∧ d.outgoing = c.outgoing := by
  have hclosed := Broadcast.receive_closed capacity h.drained
  let outgoing : Broadcast (ProtoMessage C.proto) := { c.connection.reader.outgoing with
    received := c.connection.reader.outgoing.received ++ [.closed] }
  refine ⟨{ c with connection := { c.connection with
    reader := { c.connection.reader with outgoing := outgoing } } }, ?_, ⟨h.running, h.ended, h.drained⟩, rfl⟩
  rw [ServerState.step]
  split
  · simp only [h.ended, hclosed]
    rfl
  · rename_i p hp
    cases h.running.symm.trans hp

/-- Once a connection has ended and all of its messages are routed, the task goes round its
loop as often as it is scheduled. -/
theorem exhausted_spins {s : Session} (h : Exhausted c) (n : ℕ) :
    ∃ d, run (ServerState.step s) c (List.replicate n .route) = some d ∧ Exhausted d ∧
      d.outgoing = c.outgoing := by
  induction n generalizing c with
  | zero => exact ⟨c, rfl, h, rfl⟩
  | succ n ih =>
    obtain ⟨u, hstep, hu, hsame⟩ := exhausted_step (s := s) h
    obtain ⟨d, hrun, hd, hkept⟩ := ih hu
    refine ⟨d, ?_, hd, hkept.trans hsame⟩
    rw [List.replicate_succ]
    apply (run_cons_iff _ _).mpr
    exact ⟨u, hstep, hrun⟩

def resultAt (results : List (Received (ProtoMessage C.proto))) (n : ℕ) : Received (ProtoMessage C.proto) :=
  results[n]?.getD .closed

/-- The routing loop after its first `n` iterations, in each of which the application may
have its receiver or not. Only a panic leaves the loop. -/
def routing (c : ServerState C) (results : List (Received (ProtoMessage C.proto))) (alive : ℕ → Bool) :
    ℕ → ServerState C
  | 0 => c
  | n + 1 =>
    let c := routing c results alive n
    match c.router with
    | .ok () => { c with receiverAlive := alive n }.route (resultAt results n)
    | .error _ => c

def Iterates (c : ServerState C) (results : List (Received (ProtoMessage C.proto))) (alive : ℕ → Bool)
    (n : ℕ) : Prop :=
  (routing c results alive n).router = .ok ()

/-- The loop handles every result and makes finitely many iterations. -/
def EndsAfterAll (c : ServerState C) (results : List (Received (ProtoMessage C.proto)))
    (alive : ℕ → Bool) : Prop :=
  Iterates c results alive results.length ∧ ∃ n, ¬ Iterates c results alive n

theorem iterates_before {n : ℕ} (h : Iterates c results alive (n + 1)) : Iterates c results alive n := by
  unfold Iterates at h ⊢
  rw [routing] at h
  split at h
  · assumption
  · assumption

theorem iterates_closed {n : ℕ} (h : Iterates c results alive n) (hn : results.length ≤ n) :
    Iterates c results alive (n + 1) := by
  have hclosed : resultAt results n = .closed := by
    rw [resultAt, List.getElem?_eq_none hn]
    rfl
  unfold Iterates at h ⊢
  rw [routing]
  split
  · rw [hclosed]
    exact h
  · rename_i p hp
    cases h.symm.trans hp

theorem iterates_always (h : Iterates c results alive results.length) (n : ℕ) : Iterates c results alive n := by
  rcases le_total results.length n with hn | hn
  · exact Nat.le_induction h (fun m hm hi => iterates_closed hi hm) n hn
  · exact Nat.decreasingInduction (fun m _ hi => iterates_before hi) h hn

theorem routing_never_ends (C : Crates) (c : ServerState C)
    (results : List (Received (ProtoMessage C.proto))) (alive : ℕ → Bool) :
    ¬ EndsAfterAll c results alive := by
  rintro ⟨hall, n, hn⟩
  exact hn (iterates_always hall n)

theorem list_entities_then_closed_never_ends :
    ¬ EndsAfterAll (initial ⟨false, .empty, [[0, 0, 11]], none, none⟩ : ServerState tagCrates)
      [.value ⟨.listEntitiesRequest, []⟩, .lagged 1] (fun _ => true) := by
  rintro ⟨hall, n, hn⟩
  exact hn (iterates_always hall n)

end Ends

end EsphomeNativeApi.Routing
