import EsphomeNativeApi.Schedules

/-!
From every state of a connection that does not crash, the two loops alone give all the
answers that the client's messages call for.
-/

namespace EsphomeNativeApi.Progress

open RustSemantics MessageTable FrameEncoding PacketEncrypted Api Start Channels Runs ReadLoops WriteLoops
open ClientTraffic Connection ReadHistories WriteHistories Histories Applications Safety Schedules

variable {C : Crates}

def isLoopAction {P : Proto} : Action P → Bool
  | .read | .write _ => true
  | _ => false

def LoopsReach (s : Session) (c d : State C) : Prop :=
  Reaches (State.step s) (fun action => isLoopAction action = true) c d

variable {s : Session} {e : Established C} {a : Application C.proto} {c d u : State C}
  {received : List (ProtoMessage C.proto)}

theorem LoopsReach.reached (h : LoopsReach s c d) (hc : Reached s e a c) : Reached s e a d := by
  apply hc.trans
  apply h.mono
  intro action haction
  cases action with
  | read => trivial
  | write count => trivial
  | _ => cases haction

section Answers

variable (hC : C.Lawful) (hk : s.encrypted = true → e.encryptCypher.isSome)
  (ht : Traffic C s.encrypted e.decryptCypher (e.src.data ++ e.incoming.flatten) received)
  (hh : Harmless s a received)

include hC hk ht hh

theorem polls_cancellation (hc : Reached s e a c)
    (hanswering : ∃ response, c.reader.state = .answering response)
    (hw : c.writer.state = .pollCancellation) :
    LoopsReach s c { c with writer := { c.writer with state := .pollAnswers } } := by
  obtain ⟨response, hr⟩ := hanswering
  obtain ⟨-, actions, hhistory⟩ := safe_run hC hk ht hh hc
  have hwaiting := hhistory.signals
  rw [Signals, hr] at hwaiting
  apply Reaches.single (.write 0)
  · rfl
  · simp [State.step, State.writeStep, hw, WriteLoop.pollCancellation, hwaiting]

theorem polls_answers (hc : Reached s e a c) (hanswering : ∃ response, c.reader.state = .answering response) :
    ∃ w, LoopsReach s c { c with writer := w } ∧ w.state = .pollAnswers := by
  have hrunning : ∀ d, Reached s e a d → d.reader = c.reader → d.writer.running = true := by
    intro d hd hreader
    obtain ⟨response, hr⟩ := hanswering
    obtain ⟨hsafe, actions, hhistory⟩ := safe_run hC hk ht hh hd
    exact not_refused hh hsafe hhistory (hreader ▸ hr)
  have halive := hrunning c hc rfl
  cases hw : c.writer.state with
  | pollCancellation =>
    exact ⟨{ c.writer with state := .pollAnswers }, polls_cancellation hC hk ht hh hc hanswering hw, rfl⟩
  | pollAnswers => exact ⟨c.writer, .refl c, hw⟩
  | writing message pending =>
    have hwrote : LoopsReach s c { c with writer := c.writer.write pending.length message pending } :=
      .single (.write pending.length) rfl (by simp only [State.step, State.writeStep, hw])
    have hnext := hwrote.reached hc
    have hwritten := hrunning _ hnext rfl
    have hpolling : (c.writer.write pending.length message pending).state = .pollCancellation := by
      simp only [WriteLoop.write, le_refl, ↓reduceIte, WriteLoop.running] at hwritten ⊢
      split_ifs at hwritten ⊢
      rfl
    have hpolls := polls_cancellation hC hk ht hh hnext hanswering hpolling
    exact ⟨_, hwrote.trans hpolls, rfl⟩
  | stopped => simp [WriteLoop.running, hw] at halive
  | panicked p => simp [WriteLoop.running, hw] at halive

theorem makes_room (hc : Reached s e a c) (hanswering : ∃ response, c.reader.state = .answering response) :
    ∃ w answers, LoopsReach s c { c with writer := w, answers := answers } ∧
      answers.queue.length < capacity := by
  induction hq : c.answers.queue generalizing c with
  | nil => exact ⟨c.writer, c.answers, .refl c, by simp [hq, capacity]⟩
  | cons entry queue ih =>
    obtain ⟨w, hpolls, hw⟩ := polls_answers hC hk ht hh hc hanswering
    have hpop : c.answers.pop = some (entry, ⟨c.answers.taken ++ [entry], queue⟩) := by
      rw [Mpsc.pop, hq]
    have htook : LoopsReach s { c with writer := w } _ :=
      .single (.write 0) rfl (by simp only [State.step, State.writeStep, hw, State.recv, hpop]; rfl)
    have hnext : LoopsReach s c _ := hpolls.trans htook
    obtain ⟨w', answers, hreach, hroom⟩ := ih (hnext.reached hc) hanswering rfl
    exact ⟨w', answers, hnext.trans hreach, hroom⟩

theorem gives_answer (hc : Reached s e a c) {response : ProtoMessage C.proto}
    (hr : c.reader.state = .answering response) :
    ∃ d, LoopsReach s c d ∧ d.reader = { c.reader with state := .reading } := by
  obtain ⟨w, answers, hreach, hroom⟩ := makes_room hC hk ht hh hc ⟨response, hr⟩
  obtain ⟨hsafe, actions, hhistory⟩ := safe_run hC hk ht hh (hreach.reached hc)
  have hrunning := not_refused hh hsafe hhistory hr
  have hgiven : LoopsReach s { c with writer := w, answers := answers } _ :=
    .single .read rfl (by
      simp only [State.step, State.readStep, hr, hrunning, State.hasRoom, hroom, decide_true, ↓reduceIte]; rfl)
  exact ⟨_, hreach.trans hgiven, rfl⟩

theorem handles_rest (hc : Reached s e a c) (hr : c.reader.state = .reading)
    {rest : List (ProtoMessage C.proto)}
    (hrest : Traffic C s.encrypted c.reader.decryptCypher c.reader.unread rest) :
    ∃ d, LoopsReach s c d ∧ d.reader.state = .reading ∧ messages d.reader = messages c.reader ++ rest := by
  induction rest generalizing c with
  | nil => exact ⟨c, .refl c, hr, by simp⟩
  | cons message rest ih =>
    obtain ⟨r, hreaches, hreading, -, hhandled, hmore⟩ := dispatches_message hC.proto hr hrest
    have hdispatched : LoopsReach s c { c with reader := r.dispatched s c.receiverAlive message } := by
      apply hreaches.mono
      rintro action rfl
      rfl
    have hnext := hdispatched.reached hc
    -- whatever the message calls for, the loop comes to read on from `r`
    have hreads : ∃ d, LoopsReach s c d ∧ d.reader.state = .reading ∧
        d.reader.decryptCypher = r.decryptCypher ∧ d.reader.unread = r.unread ∧
        messages d.reader = messages r := by
      by_cases hanswer : Answered s message
      · obtain ⟨response, hd⟩ := hanswer
        rw [ReadLoop.dispatched, hd] at hdispatched hnext
        obtain ⟨d, hgiven, hreader⟩ := gives_answer hC hk ht hh hnext rfl
        exact ⟨d, hdispatched.trans hgiven, by rw [hreader], by rw [hreader], by rw [hreader]; rfl,
          by rw [hreader]; rfl⟩
      · have hdead : c.receiverAlive = false → ∀ forwarded, s.api.dispatch message ≠ .forward forwarded := by
          intro hdead forwarded hf
          rw [ReadLoop.dispatched_panics hf hdead] at hnext
          exact (safe_run hC hk ht hh hnext).1.reader.alive ⟨_, rfl⟩
        obtain ⟨hstate, -, hcypher, hunread, hsame⟩ := ReadLoop.dispatched_unanswered c.receiverAlive r
          message hdead (fun response hd => hanswer ⟨response, hd⟩)
        exact ⟨_, hdispatched, hstate.trans hreading, hcypher, hunread, by rw [messages, hsame]; rfl⟩
    obtain ⟨d, hreach, hstate, hcypher, hunread, hsame⟩ := hreads
    rw [← hcypher, ← hunread] at hmore
    obtain ⟨u, hu, hustate, humessages⟩ := ih (hreach.reached hc) hstate hmore
    refine ⟨u, hreach.trans hu, hustate, ?_⟩
    rw [humessages, hsame, hhandled, List.append_assoc, List.singleton_append]

theorem answers_all (hc : Reached s e a c) :
    ∃ d, LoopsReach s c d ∧
      acceptedFrom d .readLoop = received.filterMap fun message => (s.api.dispatch message).answer? := by
  have hfinish : ∀ d, LoopsReach s c d → (d.reader.state = .reading ∨ d.reader.state = .stopping ∨
      d.reader.state = .stopped) → messages d.reader = received →
      acceptedFrom d .readLoop = received.filterMap fun message => (s.api.dispatch message).answer? := by
    intro d hreach hstate hmessages
    obtain ⟨-, actions, hhistory⟩ := safe_run hC hk ht hh (hreach.reached hc)
    have howes := hhistory.owes
    rcases hstate with hd | hd | hd <;>
    · rw [Owes, hd, answersDue, hmessages] at howes
      exact howes.symm
  have hreading : ∀ d, LoopsReach s c d → d.reader.state = .reading →
      ∃ u, LoopsReach s c u ∧
        acceptedFrom u .readLoop = received.filterMap fun message => (s.api.dispatch message).answer? := by
    intro d hreach hd
    obtain ⟨rest, hrest, hreceived⟩ := (safe_run hC hk ht hh (hreach.reached hc)).1.reader.rest
    obtain ⟨u, hu, hustate, humessages⟩ := handles_rest hC hk ht hh (hreach.reached hc) hd hrest
    exact ⟨u, hreach.trans hu, hfinish u (hreach.trans hu) (.inl hustate) (humessages.trans hreceived.symm)⟩
  obtain ⟨hsafe, actions, hhistory⟩ := safe_run hC hk ht hh hc
  have hended := handled_all hsafe.reader
  have hsignals := hhistory.signals
  cases hr : c.reader.state with
  | reading => exact hreading c (.refl c) hr
  | answering response =>
    obtain ⟨d, hgiven, hreader⟩ := gives_answer hC hk ht hh hc hr
    exact hreading d hgiven (by rw [hreader])
  | stopping =>
    rw [Signals, hr] at hsignals
    exact ⟨c, .refl c, hfinish c (.refl c) (.inr (.inl hr)) (hended hsignals)⟩
  | stopped =>
    rw [Signals, hr] at hsignals
    exact ⟨c, .refl c, hfinish c (.refl c) (.inr (.inr hr)) (hended hsignals)⟩
  | panicked p => exact absurd ⟨p, hr⟩ hsafe.reader.alive

end Answers

end EsphomeNativeApi.Progress
