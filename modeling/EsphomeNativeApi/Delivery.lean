import EsphomeNativeApi.Safety

/-!
What the application receives of the messages that the read loop forwards.
-/

namespace EsphomeNativeApi.Delivery

open RustSemantics MessageTable Api Start Channels Runs ReadLoops WriteLoops ClientTraffic Connection
open ReadHistories Histories Applications Safety

variable {C : Crates} {s : Session} {e : Established C} {actions : List (Action C.proto)} {c d : State C}
  {received : List (ProtoMessage C.proto)}

section Reception

/-- The read loop reads on, or panicked for want of the write loop or of a receiver. -/
inductive Reception (s : Session) (received : List (ProtoMessage C.proto)) (c : State C) : Prop where
  | reading (reader : Reading s received c.reader)
  | refused (panicked : panicked c.reader) (ended : c.writer.running = false)
      (request : ∃ message ∈ received, Answered s message)
  | unheard (unheard : Unheard s c.receiverAlive received c.reader)

theorem dropped_kept {action : Action C.proto} (ht : Transition s c action d)
    (h : c.receiverAlive = false) : d.receiverAlive = false := by
  cases ht with
  | receiverDropped => rfl
  | _ => exact h

theorem Reception.reading_of_alive (h : Reception s received c) (halive : ¬ panicked c.reader) :
    Reading s received c.reader := by
  cases h with
  | reading reader => exact reader
  | refused panicked ended request => exact absurd panicked halive
  | unheard unheard => exact absurd unheard.panicked halive

theorem panicked_kept {action : Action C.proto} (ht : Transition s c action d) (h : panicked c.reader) :
    panicked d.reader := by
  obtain ⟨p, hp⟩ := h
  cases ht with
  | polled reader reading reads => cases hp.symm.trans reading
  | answered response answering running room => cases hp.symm.trans answering
  | refused response answering ended => cases hp.symm.trans answering
  | finished stopping => cases hp.symm.trans stopping
  | _ => exact ⟨p, hp⟩

theorem panicked_messages {action : Action C.proto} (ht : Transition s c action d) (h : panicked c.reader) :
    messages d.reader = messages c.reader := by
  obtain ⟨p, hp⟩ := h
  cases ht with
  | polled reader reading reads => cases hp.symm.trans reading
  | _ => rfl

theorem unheard_kept {action : Action C.proto} (ht : Transition s c action d)
    (h : Unheard s c.receiverAlive received c.reader) : Unheard s d.receiverAlive received d.reader where
  panicked := panicked_kept ht h.panicked
  dropped := dropped_kept ht h.dropped
  last := (panicked_messages ht h.panicked).symm ▸ h.last

theorem reading_step (hhistory : History s e actions c) (h : Reading s received c.reader)
    {action : Action C.proto} (ht : Transition s c action d) : Reception s received d := by
  cases ht with
  | polled reader reading reads =>
    have hwaiting := hhistory.signals
    rw [Signals, reading] at hwaiting
    rcases reading_reads h reading hwaiting reads with hreader | hunheard
    · exact .reading hreader
    · exact .unheard hunheard
  | answered response answering running room => exact .reading ⟨by simp [panicked], h.rest, h.ended⟩
  | refused response answering ended =>
    obtain ⟨message, hm, ha⟩ := owes_request hhistory.owes answering
    exact .refused ⟨_, rfl⟩ ended ⟨message, handled_received h hm, response, ha⟩
  | finished stopping => exact .reading ⟨by simp [panicked], h.rest, h.ended⟩
  | received _ outgoing alive next => exact .reading ⟨h.alive, h.rest, h.ended⟩
  | _ => exact .reading h

theorem reception_step (hhistory : History s e actions c) (h : Reception s received c)
    {action : Action C.proto} (ht : Transition s c action d) : Reception s received d := by
  cases h with
  | reading reader => exact reading_step hhistory reader ht
  | refused panicked ended request =>
    have hwriter := (ended_frame ended ht).1
    apply Reception.refused
    · exact panicked_kept ht panicked
    · rw [hwriter]
      exact ended
    · exact request
  | unheard unheard => exact .unheard (unheard_kept ht unheard)

theorem reception_run (hP : C.proto.Lawful)
    (ht : Traffic C s.encrypted e.decryptCypher (e.src.data ++ e.incoming.flatten) received)
    (h : run (State.step s) (initial e) actions = some c) : Reception s received c := by
  apply run_history (fun _ u => Reception s received u) h
  · exact .reading (reading_initial ht)
  · intro past action u v hu hpast hv
    exact reception_step (history_run hP hu) hpast (step_cases hP hv)

theorem ended_signals {r : ReadLoop C} (h : Signals r) (halive : ¬ panicked r)
    (hended : readerHoldsSender r = false) : r.cancellation = .sent "read loop finished" := by
  rw [Signals, ended_stopped halive hended] at h
  exact h

end Reception

section Outgoing

theorem reads_outgoing {r t : ReadLoop C} {receiverAlive : Bool} (h : r.Reads s receiverAlive t) :
    t.outgoing = r.outgoing ∨ ∃ message, t.outgoing = r.outgoing.send message := by
  cases h with
  | frame src frame parsed =>
    unfold ReadLoop.handle
    split
    · exact .inl rfl
    · rename_i message k _
      unfold ReadLoop.dispatched
      cases s.api.dispatch message with
      | answer response => exact .inl rfl
      | ignore => exact .inl rfl
      | forward forwarded =>
        cases receiverAlive with
        | true => exact .inr ⟨forwarded, rfl⟩
        | false => exact .inl rfl
  | chunk src chunk chunks parsed next appended => exact .inl rfl
  | finished src empty ended kept => exact .inl rfl
  | broken src reason kept => exact .inl rfl

/-- Only the application's receive takes from the broadcast, and only a read loop that
still runs sends to it. -/
theorem outgoing_cases {action : Action C.proto} (ht : Transition s c action d) :
    (action = .receive ∧ readerHoldsSender d.reader = readerHoldsSender c.reader ∧ ∃ result,
        Broadcast.Receives capacity (readerHoldsSender c.reader) c.reader.outgoing result d.reader.outgoing) ∨
      action ≠ .receive ∧ (d.reader = c.reader ∨ readerHoldsSender c.reader = true ∧
        (d.reader.outgoing = c.reader.outgoing ∨
          ∃ message, d.reader.outgoing = c.reader.outgoing.send message)) := by
  cases ht with
  | polled reader reading reads =>
    exact .inr ⟨by simp, .inr ⟨by simp [readerHoldsSender, reading], reads_outgoing reads⟩⟩
  | answered response answering running room =>
    exact .inr ⟨by simp, .inr ⟨by simp [readerHoldsSender, answering], .inl rfl⟩⟩
  | refused response answering ended =>
    exact .inr ⟨by simp, .inr ⟨by simp [readerHoldsSender, answering], .inl rfl⟩⟩
  | finished stopping => exact .inr ⟨by simp, .inr ⟨by simp [readerHoldsSender, stopping], .inl rfl⟩⟩
  | received result outgoing alive next =>
    exact .inl ⟨rfl, rfl, result, Broadcast.receive_cases next⟩
  | _ => exact .inr ⟨by simp, .inl rfl⟩

/-- The receives account for what was broadcast, and `Closed` comes after all of it. -/
structure Receiving (r : ReadLoop C) : Prop where
  sound : r.outgoing.Sound
  closed : .closed ∈ r.outgoing.received →
    readerHoldsSender r = false ∧ r.outgoing.sent.length ≤ r.outgoing.cursor

theorem receiving_step (h : Receiving c.reader) {action : Action C.proto} (ht : Transition s c action d) :
    Receiving d.reader := by
  rcases outgoing_cases ht with ⟨-, hholds, result, hreceives⟩ | ⟨-, hsame | ⟨hholds, hsent⟩⟩
  · refine ⟨Broadcast.sound_receive h.sound hreceives, ?_⟩
    intro hclosed
    obtain ⟨hsent, happends⟩ := Broadcast.receives_appends hreceives
    rw [happends, List.mem_append] at hclosed
    generalize ho : d.reader.outgoing = outgoing at hreceives
    -- after `Closed` nothing is left, so neither a value nor a lag can follow
    cases hreceives with
    | value a keeping next =>
      have hlt := (List.getElem?_eq_some_iff.mp next).1
      rcases hclosed with hclosed | hclosed
      · exact absurd (h.closed hclosed).2 (not_le.mpr hlt)
      · simp at hclosed
    | lagged behind =>
      rcases hclosed with hclosed | hclosed
      · have hdrained := (h.closed hclosed).2
        omega
      · simp at hclosed
    | closed ended drained => exact ⟨hholds.trans ended, drained⟩
  · rw [hsame]
    exact h
  · -- a read loop that still runs has not closed the channel
    have hopen : .closed ∉ c.reader.outgoing.received := by
      intro hclosed
      rw [(h.closed hclosed).1] at hholds
      cases hholds
    rcases hsent with hsent | ⟨message, hsent⟩
    · exact ⟨hsent ▸ h.sound, fun hclosed => absurd (hsent ▸ hclosed) hopen⟩
    · refine ⟨hsent ▸ Broadcast.sound_send h.sound message, ?_⟩
      intro hclosed
      rw [hsent] at hclosed
      exact absurd hclosed hopen

theorem receiving_run (hP : C.proto.Lawful) (h : run (State.step s) (initial e) actions = some c) :
    Receiving c.reader := by
  apply run_invariant (fun u : State C => Receiving u.reader) h
  · exact ⟨Broadcast.sound_empty, fun hclosed => nomatch hclosed⟩
  · intro action _ u v hu hv
    exact receiving_step hu (step_cases hP hv)

end Outgoing

section Commands

/-- Whenever the application receives, at most as many messages are unread as the channel keeps. -/
def KeepsUp (s : Session) (e : Established C) (actions : List (Action C.proto)) : Prop :=
  ∀ before u, before ++ [.receive] <+: actions → run (State.step s) (initial e) before = some u →
    u.reader.outgoing.sent.length ≤ u.reader.outgoing.cursor + capacity

theorem keepsUp_snoc (action : Action C.proto) (h : run (State.step s) (initial e) actions = some c) :
    KeepsUp s e (actions ++ [action]) ↔ KeepsUp s e actions ∧
      (action = .receive → c.reader.outgoing.sent.length ≤ c.reader.outgoing.cursor + capacity) := by
  constructor
  · intro hkeeps
    constructor
    · intro before u hbefore
      exact hkeeps before u (hbefore.trans (List.prefix_append _ _))
    · rintro rfl
      exact hkeeps actions c (List.prefix_refl _) h
  · rintro ⟨hkeeps, hlast⟩ before u hbefore hrun
    rcases List.prefix_concat_iff.mp hbefore with heq | hbefore
    · obtain ⟨rfl, haction⟩ := List.append_inj' heq rfl
      cases haction
      cases hrun.symm.trans h
      exact hlast rfl
    · exact hkeeps before u hbefore hrun

theorem lossless_step {action : Action C.proto} (ht : Transition s c action d) :
    Lossless d.reader.outgoing.received ↔ Lossless c.reader.outgoing.received ∧
      (action = .receive → c.reader.outgoing.sent.length ≤ c.reader.outgoing.cursor + capacity) := by
  rcases outgoing_cases ht with ⟨rfl, -, result, hreceives⟩ | ⟨hnot, hsame⟩
  · rw [Broadcast.receives_lossless hreceives]
    simp
  · have hreceived : d.reader.outgoing.received = c.reader.outgoing.received := by
      rcases hsame with hsame | ⟨-, hsame | ⟨message, hsame⟩⟩
      · rw [hsame]
      · rw [hsame]
      · rw [hsame]
        rfl
    rw [hreceived]
    simp [hnot]

theorem lossless_iff_keepsUp (hP : C.proto.Lawful) (h : run (State.step s) (initial e) actions = some c) :
    Lossless c.reader.outgoing.received ↔ KeepsUp s e actions := by
  apply run_history (fun past u => Lossless u.reader.outgoing.received ↔ KeepsUp s e past) h
  · constructor
    · intro _ before u hbefore
      simp at hbefore
    · intro _ result hm
      cases hm
  · intro past action u v hu hpast hv
    rw [lossless_step (step_cases hP hv), keepsUp_snoc action hu, hpast]

/-- The receives give the messages one after another, and all of them before `Closed`. -/
structure DeliversExactly (commands : List (ProtoMessage C.proto)) (r : ReadLoop C) : Prop where
  lossless : Lossless r.outgoing.received
  in_order : valuesOf r.outgoing.received <+: commands
  all : .closed ∈ r.outgoing.received → valuesOf r.outgoing.received = commands

/-- The receives account for the messages, each once and in order, and give each of them
as long as the application keeps up. -/
structure Delivers (s : Session) (e : Established C) (commands : List (ProtoMessage C.proto))
    (actions : List (Action C.proto)) (c : State C) : Prop where
  accounted : Accounts c.reader.outgoing.received (commands.take c.reader.outgoing.cursor)
  all_accounted : .closed ∈ c.reader.outgoing.received → Accounts c.reader.outgoing.received commands
  exactly_iff : DeliversExactly commands c.reader ↔ KeepsUp s e actions

theorem commands_delivered (C : Crates) (hC : C.Lawful) (s : Session) (e : Established C)
    (received : List (ProtoMessage C.proto))
    (ht : Traffic C s.encrypted e.decryptCypher (e.src.data ++ e.incoming.flatten) received)
    (hunanswered : ∀ message ∈ received, ¬ Answered s message) (actions : List (Action C.proto)) (c : State C)
    (h : run (State.step s) (initial e) actions = some c) (halive : c.receiverAlive = true) :
    Delivers s e (forwarded s received) actions c := by
  have hhistory := history_run hC.proto h
  obtain ⟨hsound, hclosed⟩ := receiving_run hC.proto h
  have hreading : Reading s received c.reader := by
    cases reception_run hC.proto ht h with
    | reading reader => exact reader
    | refused panicked ended request =>
      obtain ⟨message, hm, ha⟩ := request
      exact absurd ha (hunanswered message hm)
    | unheard unheard => cases halive.symm.trans unheard.dropped
  have hsent : c.reader.outgoing.sent = forwarded s (messages c.reader) :=
    hhistory.reader.broadcast.2 hreading.alive
  have hprefix : c.reader.outgoing.sent <+: forwarded s received := by
    obtain ⟨rest, -, hsplit⟩ := hreading.rest
    rw [hsent, hsplit]
    exact (List.prefix_append _ rest).filterMap _
  have htake : c.reader.outgoing.sent.take c.reader.outgoing.cursor =
      (forwarded s received).take c.reader.outgoing.cursor := by
    obtain ⟨rest, hrest⟩ := hprefix
    rw [← hrest, List.take_append_of_le_length hsound.bounded]
  have haccounts : Accounts c.reader.outgoing.received ((forwarded s received).take c.reader.outgoing.cursor) :=
    htake ▸ hsound.accounts
  have hall : .closed ∈ c.reader.outgoing.received →
      (forwarded s received).take c.reader.outgoing.cursor = forwarded s received := by
    intro hm
    obtain ⟨hended, hdrained⟩ := hclosed hm
    rw [hsent, handled_all hreading (ended_signals hhistory.signals hreading.alive hended)] at hdrained
    exact List.take_of_length_le hdrained
  refine ⟨haccounts, fun hm => hall hm ▸ haccounts, ?_⟩
  rw [← lossless_iff_keepsUp hC.proto h]
  constructor
  · exact fun hexactly => hexactly.lossless
  · intro hlossless
    have hvalues := haccounts.valuesOf_eq hlossless
    exact ⟨hlossless, hvalues ▸ List.take_prefix _ _, fun hm => hvalues.trans (hall hm)⟩

theorem traffic_replicate {kind : MessageKind} (t : UInt8) (ht : kind.mapping.typeId = t.toNat) (n : ℕ) :
    Traffic tagCrates false none (List.replicate n [0, 0, t]).flatten (List.replicate n ⟨kind, []⟩) := by
  induction n with
  | zero => exact .done none
  | succ n ih => exact traffic_emptyFrame t _ ht ih

def burstSession : Session := ⟨{ name := "test-device" }, false, false, false⟩

def burstStart : Established tagCrates :=
  ⟨false, .empty, [[0, 0, 11] ++ (List.replicate 16 [0, 0, 20]).flatten], none, none⟩

def burst : List (ProtoMessage tagCrates.proto) :=
  ⟨.listEntitiesRequest, []⟩ :: List.replicate 16 ⟨.subscribeStatesRequest, []⟩

def burstThenReceives : List (Action tagCrates.proto) := List.replicate 18 .read ++ [.receive, .receive]

theorem burst_unanswered : ∀ message ∈ burst, ¬ Answered burstSession message := by
  rintro message hm ⟨response, ha⟩
  rcases List.mem_cons.mp hm with rfl | hm
  · cases ha
  · rw [List.eq_of_mem_replicate hm] at ha
    cases ha

theorem burst_traffic :
    Traffic tagCrates false none (burstStart.src.data ++ burstStart.incoming.flatten) burst := by
  have hstream : burstStart.src.data ++ burstStart.incoming.flatten =
      [0, 0, 11] ++ (List.replicate 16 [0, 0, 20]).flatten := by decide
  rw [hstream]
  exact traffic_emptyFrame 11 _ rfl (traffic_replicate 20 rfl 16)

theorem burst_received :
    ∃ c, run (State.step burstSession) (initial burstStart) burstThenReceives = some c ∧
      c.receiverAlive = true ∧
      (valuesOf c.reader.outgoing.received).map (·.kind) = [.subscribeStatesRequest] :=
  run_check (by decide +kernel)

theorem burst_overwrites :
    ∃ c, Traffic tagCrates false none (burstStart.src.data ++ burstStart.incoming.flatten) burst ∧
      (∀ message ∈ burst, ¬ Answered burstSession message) ∧
      run (State.step burstSession) (initial burstStart) burstThenReceives = some c ∧
      c.receiverAlive = true ∧ ¬ DeliversExactly burst c.reader := by
  obtain ⟨c, hrun, halive, hkinds⟩ := burst_received
  refine ⟨c, burst_traffic, burst_unanswered, hrun, halive, ?_⟩
  -- the `ListEntitiesRequest` was overwritten before the first receive
  intro hexactly
  have hprefix := hexactly.in_order.map (·.kind)
  have hburst : burst.map (·.kind) = .listEntitiesRequest :: List.replicate 16 .subscribeStatesRequest := rfl
  rw [hkinds, hburst] at hprefix
  cases (List.cons_prefix_cons.mp hprefix).1

theorem commands_delivered_burst :
    ∃ c, run (State.step burstSession) (initial burstStart) burstThenReceives = some c ∧
      Delivers burstSession burstStart (forwarded burstSession burst) burstThenReceives c := by
  obtain ⟨c, hrun, halive, -⟩ := burst_received
  exact ⟨c, hrun, commands_delivered tagCrates tagCrates_lawful burstSession burstStart burst burst_traffic
    burst_unanswered burstThenReceives c hrun halive⟩

end Commands

end EsphomeNativeApi.Delivery
