import EsphomeNativeApi.Histories

/-!
The requests that the read loop answers itself, each with the response it is to have.
-/

namespace EsphomeNativeApi.RequestMatching

open RustSemantics MessageTable PacketEncrypted Api Start Channels Runs ReadLoops
open ClientTraffic Connection ReadHistories Histories

def responseKind? : MessageKind → Option MessageKind
  | .disconnectRequest => some .disconnectResponse
  | .pingRequest => some .pingResponse
  | .deviceInfoRequest => some .deviceInfoResponse
  | .helloRequest => some .helloResponse
  | .authenticationRequest => some .authenticationResponse
  | _ => none

variable {P : Proto}

def hasPassword : ProtoMessage P → Bool
  | ⟨.authenticationRequest, request⟩ => P.password request ≠ ""
  | _ => false

def isRequest (message : ProtoMessage P) : Bool := (responseKind? message.kind).isSome

/-- Every request has its response, in order, and all else is forwarded. -/
structure Matched (handled answers forwarded : List (ProtoMessage P)) : Prop where
  answered : answers.map (·.kind) = handled.filterMap fun message => responseKind? message.kind
  forwarded : forwarded = handled.filter fun message => !isRequest message

structure MatchedButPasswords (handled answers forwarded : List (ProtoMessage P)) : Prop where
  answered : answers.map (·.kind) =
    (handled.filter fun message => !hasPassword message).filterMap fun message => responseKind? message.kind
  forwarded : forwarded = handled.filter fun message => !isRequest message

theorem dispatch_request (api : EspHomeApi) (message : ProtoMessage P) :
    (api.dispatch message).answer?.map (·.kind) =
        (if hasPassword message then none else responseKind? message.kind) ∧
      (api.dispatch message).forward? = if isRequest message then none else some message := by
  unfold EspHomeApi.dispatch
  split
  · exact ⟨rfl, rfl⟩
  · exact ⟨rfl, rfl⟩
  · exact ⟨rfl, rfl⟩
  · exact ⟨rfl, rfl⟩
  · rename_i request
    by_cases hp : P.password request = ""
    · simp [hp, hasPassword, isRequest, responseKind?, Dispatch.answer?, Dispatch.forward?]
    · simp [hp, hasPassword, isRequest, responseKind?, Dispatch.answer?, Dispatch.forward?]
  · rename_i hdisconnect hping hdevice hhello hauthentication
    obtain ⟨kind, body⟩ := message
    have hkind : responseKind? kind = none := by
      unfold responseKind?
      split
      · exact absurd rfl (hdisconnect body)
      · exact absurd rfl (hping body)
      · exact absurd rfl (hdevice body)
      · exact absurd rfl (hhello body)
      · exact absurd rfl (hauthentication body)
      · rfl
    simp [isRequest, hkind, Dispatch.answer?, Dispatch.forward?]

theorem answers_kinds (api : EspHomeApi) (handled : List (ProtoMessage P)) :
    (handled.filterMap fun message => (api.dispatch message).answer?).map (·.kind) =
      (handled.filter fun message => !hasPassword message).filterMap
        fun message => responseKind? message.kind := by
  rw [List.map_filterMap, List.filterMap_filter]
  apply List.filterMap_congr
  intro message _
  rw [(dispatch_request api message).1]
  cases hasPassword message <;> rfl

theorem forwarded_filter (api : EspHomeApi) (handled : List (ProtoMessage P)) :
    (handled.filterMap fun message => (api.dispatch message).forward?) =
      handled.filter fun message => !isRequest message := by
  rw [← List.filterMap_eq_filter]
  apply List.filterMap_congr
  intro message _
  rw [(dispatch_request api message).2, Option.guard]
  cases isRequest message <;> rfl

variable {C : Crates}

/-- The response for which the read loop awaits room in the answer queue. -/
def waiting (r : ReadLoop C) : List (ProtoMessage C.proto) :=
  match r.state with
  | .answering response => [response]
  | _ => []

/-- The read loop has done all that the messages it handled called for, but for the waiting response. -/
def Settled (s : Session) (c : State C) : Prop :=
  answersDue s c.reader = acceptedFrom c .readLoop ++ waiting c.reader ∧
    c.reader.outgoing.sent = broadcastsDue s c.reader

variable {s : Session} {e : Established C} {actions : List (Action C.proto)} {c d : State C}

theorem settled_alive (h : History s e actions c) (hr : ¬ panicked c.reader) : Settled s c := by
  refine ⟨?_, h.reader.broadcast.2 hr⟩
  have howes := h.owes
  unfold Owes at howes
  unfold waiting
  cases hstate : c.reader.state with
  | answering response =>
    rw [hstate] at howes
    exact howes
  | panicked p => exact absurd ⟨p, hstate⟩ hr
  | _ =>
    rw [hstate] at howes
    rw [List.append_nil]
    exact howes

theorem settled_panicked {r : ReadLoop C} (hr : panicked r) : waiting r = [] := by
  obtain ⟨p, hp⟩ := hr
  rw [waiting, hp]

theorem dispatched_alive {r : ReadLoop C} (hr : r.state = .reading) (message : ProtoMessage C.proto) :
    ¬ panicked (r.dispatched s true message) := by
  rintro ⟨p, hp⟩
  have hstate := (ReadLoop.dispatched_fields (s := s) true r message (by simp)).2.2.2.2.2
  rcases hstate with hstate | ⟨response, -, hstate⟩
  · rw [hstate, hr] at hp
    cases hp
  · rw [hstate] at hp
    cases hp

theorem reads_panicked {r t : ReadLoop C} (hr : r.state = .reading) (hread : r.Reads s true t)
    (hp : panicked t) : messages t = messages r ∧ t.outgoing = r.outgoing := by
  cases hread with
  | frame src frame parsed =>
    rcases handle_cases s true { r with src := src } frame with ⟨message, k, hc⟩ | ⟨p, hpanic⟩
    · rw [handle_carries hc] at hp
      exact absurd hp (dispatched_alive (r := ({ r with src := src } : ReadLoop C).opened frame message k) hr message)
    · rw [hpanic]
      exact ⟨rfl, rfl⟩
  | chunk src chunk chunks parsed next appended =>
    exact absurd hp (not_panicked_reading (r := { r with src := src, incoming := chunks }) hr)
  | finished src empty ended kept =>
    obtain ⟨p, hp⟩ := hp
    cases hp
  | broken src reason kept => exact ⟨rfl, rfl⟩

theorem settled_step (h : Settled s c) (hr : panicked d.reader)
    {action : Action C.proto} (ht : Transition s c action d) (halive : d.receiverAlive = true)
    (hopen : c.writer.running = true) : Settled s d := by
  obtain ⟨hdue, hsent⟩ := h
  cases ht with
  | polled reader reading reads =>
    rw [show c.receiverAlive = true from halive] at reads
    obtain ⟨hmessages, houtgoing⟩ := reads_panicked reading reads hr
    have hwaiting : waiting c.reader = [] := by rw [waiting, reading]
    rw [Settled, settled_panicked hr, answersDue, broadcastsDue, hmessages, houtgoing]
    exact ⟨hwaiting ▸ hdue, hsent⟩
  | answered response answering running room => exact absurd hr (not_panicked_reading rfl)
  | refused response answering ended => cases hopen.symm.trans ended
  | finished stopping =>
    obtain ⟨p, hp⟩ := hr
    cases hp
  | took count producer message answers polling popped =>
    refine ⟨?_, hsent⟩
    rw [acceptedFrom, (taken_pop popped).2]
    exact hdue
  | sent t message alive running room =>
    refine ⟨?_, hsent⟩
    rw [acceptedFrom, acceptedFrom_push, if_neg (by simp), List.append_nil]
    exact hdue
  | received _ outgoing alive next => exact ⟨hdue, (Broadcast.receive_sent next).trans hsent⟩
  | _ => exact ⟨hdue, hsent⟩

theorem settled_run (hC : C.Lawful) (h : run (State.step s) (initial e) actions = some c)
    (halive : c.receiverAlive = true) (hopen : c.writer.running = true) : Settled s c := by
  revert halive hopen
  apply run_history (fun _ u => u.receiverAlive = true → u.writer.running = true → Settled s u) h
  · exact fun _ _ => settled_alive history_initial (not_panicked_reading rfl)
  · intro past action u v hu hpast hv halive hopen
    have ht := step_cases hC.proto hv
    by_cases hr : panicked v.reader
    · have hbefore : u.writer.running = true := by
        by_contra hended
        rw [(ended_frame (Bool.eq_false_iff.mpr hended) ht).1] at hopen
        exact hended hopen
      have halive' : u.receiverAlive = true := by
        cases ht with
        | receiverDropped => cases halive
        | _ => exact halive
      exact settled_step (hpast halive' hbefore) hr ht halive hbefore
    · exact settled_alive (history_step hC.proto (history_run hC.proto hu) hv) hr

theorem requests_matched (C : Crates) (hC : C.Lawful) (s : Session) (e : Established C)
    (actions : List (Action C.proto)) (c : State C) (h : run (State.step s) (initial e) actions = some c)
    (halive : c.receiverAlive = true) (hopen : c.writer.running = true) :
    MatchedButPasswords (messages c.reader) (acceptedFrom c .readLoop ++ waiting c.reader)
      c.reader.outgoing.sent := by
  obtain ⟨hdue, hsent⟩ := settled_run hC h halive hopen
  constructor
  · rw [← hdue]
    exact answers_kinds s.api (messages c.reader)
  · rw [hsent]
    exact forwarded_filter s.api (messages c.reader)

def passwordStart : Established tagCrates := ⟨false, .empty, [[0, 3, 3, 10, 1, 120]], none, none⟩

theorem password_handled :
    ∃ c, run (State.step ⟨{ name := "test-device" }, false, false, false⟩) (initial passwordStart)
        [.read, .read] = some c ∧ c.receiverAlive = true ∧ c.writer.running = true ∧
      (acceptedFrom c .readLoop ++ waiting c.reader).length = 0 ∧
      (messages c.reader).map (·.kind) = [.authenticationRequest] :=
  run_check (by decide +kernel)

theorem password_unanswered :
    ∃ c, run (State.step ⟨{ name := "test-device" }, false, false, false⟩) (initial passwordStart)
        [.read, .read] = some c ∧ c.receiverAlive = true ∧ c.writer.running = true ∧
      ¬ Matched (messages c.reader) (acceptedFrom c .readLoop ++ waiting c.reader) c.reader.outgoing.sent := by
  obtain ⟨c, hrun, halive, hopen, hnone, hkinds⟩ := password_handled
  refine ⟨c, hrun, halive, hopen, ?_⟩
  intro hmatched
  have hcalled : (messages c.reader).filterMap (fun message => responseKind? message.kind) =
      ((messages c.reader).map (·.kind)).filterMap responseKind? := by
    rw [List.filterMap_map]
    rfl
  have hanswered := hmatched.answered
  rw [List.length_eq_zero_iff.mp hnone, hcalled, hkinds] at hanswered
  cases hanswered

theorem requests_matched_password :
    ∃ c, run (State.step ⟨{ name := "test-device" }, false, false, false⟩) (initial passwordStart)
        [.read, .read] = some c ∧
      MatchedButPasswords (messages c.reader) (acceptedFrom c .readLoop ++ waiting c.reader)
        c.reader.outgoing.sent := by
  obtain ⟨c, hrun, halive, hopen, -⟩ := password_handled
  exact ⟨c, hrun, requests_matched tagCrates tagCrates_lawful _ passwordStart _ c hrun halive hopen⟩

end EsphomeNativeApi.RequestMatching
