import EsphomeNativeApi.Schedules

/-!
A connection that no order of steps crashes has a harmless application and client.
-/

namespace EsphomeNativeApi.Withstanding

open RustSemantics MessageTable Frames FrameFormat FrameEncoding Framing PacketEncrypted Api Start
open Channels Runs ReadLoops WriteLoops ClientTraffic Connection ReadHistories WriteHistories Histories
open Applications Safety Schedules

variable {C : Crates} {s : Session} {a : Application C.proto} {c d : State C}

section Requests

variable {received : List (ProtoMessage C.proto)}

theorem sturdy_receiver {r : ReadLoop C} {message : ProtoMessage C.proto}
    (h : Sturdy s a { c with reader := r.dispatched s c.receiverAlive message })
    (hdead : c.receiverAlive = false) : ¬ Forwarded s message := by
  rintro ⟨forwarded, hd⟩
  rw [ReadLoop.dispatched_panics hd hdead] at h
  exact h.sound (.inl ⟨_, rfl⟩)

theorem sturdy_stopped (hP : C.proto.Lawful) (h : Sturdy s a c) (hr : c.reader.state = .reading)
    (hw : c.writer.state = .stopped)
    (ht : Traffic C s.encrypted c.reader.decryptCypher c.reader.unread received) :
    ∀ message ∈ received, ¬ Answered s message ∧ (c.receiverAlive = false → ¬ Forwarded s message) := by
  induction received generalizing c with
  | nil => simp
  | cons message rest ih =>
    obtain ⟨r, hnext, hreading, -, hrest⟩ := h.message hP hr ht
    have hforward := sturdy_receiver hnext
    have hanswer : ¬ Answered s message := by
      rintro ⟨response, hd⟩
      rw [ReadLoop.dispatched, hd] at hnext
      have hrefused := hnext.step .read trivial
        (by simp [State.step, State.readStep, WriteLoop.running, hw]; rfl)
      exact hrefused.sound (.inl ⟨_, rfl⟩)
    obtain ⟨hstate, -, hk, hunread, -⟩ := ReadLoop.dispatched_unanswered c.receiverAlive r message
      (fun hdead forwarded hf => hforward hdead ⟨forwarded, hf⟩) (fun response ha => hanswer ⟨response, ha⟩)
    rw [← hk, ← hunread] at hrest
    have hmore := ih hnext (hstate.trans hreading) hw hrest
    exact List.forall_mem_cons.mpr ⟨⟨hanswer, hforward⟩, hmore⟩

/-- What a run without crash from an idle state says about the messages still to be read. -/
structure Withstood (s : Session) (a : Application C.proto) (c : State C)
    (received : List (ProtoMessage C.proto)) : Prop where
  after_disconnect : QuietAfterDisconnect s received
  answers_encodable : AnswersEncodable C s received
  receiver : c.receiverAlive = false → ∀ message ∈ received, ¬ Forwarded s message
  drained : (∀ message ∈ received, isDisconnectRequest message = false) →
    ∃ d, Sturdy s a d ∧ Idle s d ∧ d.senderAlive = c.senderAlive ∧
      Traffic C s.encrypted d.reader.decryptCypher d.reader.unread []

variable {message : ProtoMessage C.proto} {rest : List (ProtoMessage C.proto)}

theorem Withstood.cons (h : Withstood s a d rest) (hreceiver : d.receiverAlive = c.receiverAlive)
    (hsender : d.senderAlive = c.senderAlive) (hd : isDisconnectRequest message = false)
    (hencodable : ∀ response, s.api.dispatch message = .answer response → Encodable C s.encrypted response)
    (hforward : c.receiverAlive = false → ¬ Forwarded s message) : Withstood s a c (message :: rest) where
  after_disconnect := by
    apply List.pairwise_cons.mpr
    constructor
    · intro later _ hrequest
      rw [hd] at hrequest
      cases hrequest
    · exact h.after_disconnect
  answers_encodable := List.forall_mem_cons.mpr ⟨hencodable, h.answers_encodable⟩
  receiver hdead := List.forall_mem_cons.mpr ⟨hforward hdead, h.receiver (hreceiver.trans hdead)⟩
  drained hall := by
    obtain ⟨d', hsturdy, hidle, halive, ht⟩ := h.drained (List.forall_mem_cons.mp hall).2
    exact ⟨d', hsturdy, hidle, halive.trans hsender, ht⟩

theorem Withstood.disconnect
    (h : ∀ m ∈ rest, ¬ Answered s m ∧ (c.receiverAlive = false → ¬ Forwarded s m))
    (hd : isDisconnectRequest message = true)
    (hencodable : ∀ response, s.api.dispatch message = .answer response → Encodable C s.encrypted response)
    (hforward : c.receiverAlive = false → ¬ Forwarded s message) : Withstood s a c (message :: rest) where
  after_disconnect := List.pairwise_cons.mpr
    ⟨fun later hm _ => (h later hm).1,
      List.pairwise_of_forall_mem_list fun _ _ later hm _ => (h later hm).1⟩
  answers_encodable := List.forall_mem_cons.mpr
    ⟨hencodable, fun m hm response ha => absurd ⟨response, ha⟩ (h m hm).1⟩
  receiver hdead := List.forall_mem_cons.mpr ⟨hforward hdead, fun m hm => (h m hm).2 hdead⟩
  drained hall := by
    have hnot := hall message List.mem_cons_self
    rw [hd] at hnot
    cases hnot

theorem not_disconnectRequest (h : ∀ response, s.api.dispatch message ≠ .answer response) :
    isDisconnectRequest message = false := by
  by_contra hd
  rw [Bool.not_eq_false] at hd
  exact h _ (dispatch_disconnectRequest s.api (of_decide_eq_true hd))

theorem sturdy_withstood (hC : C.Lawful) (h : Sturdy s a c) (hi : Idle s c)
    (ht : Traffic C s.encrypted c.reader.decryptCypher c.reader.unread received) :
    Withstood s a c received := by
  induction received generalizing c with
  | nil => exact ⟨.nil, by simp [AnswersEncodable], by simp, fun _ => ⟨c, h, hi, rfl, ht⟩⟩
  | cons message rest ih =>
    obtain ⟨r, hnext, hreading, hcancel, hrest⟩ := h.message hC.proto hi.reading ht
    have hwaiting : r.cancellation = .waiting := hcancel.trans hi.waiting
    have hforward := sturdy_receiver hnext
    by_cases hanswer : Answered s message
    · obtain ⟨response, hd⟩ := hanswer
      rw [ReadLoop.dispatched, hd] at hnext
      obtain ⟨hencodable, w, answers, hanswered, hempty, hkeyed, hstate⟩ :=
        hnext.answer hC rfl hi.polling hwaiting hi.empty hi.keyed
      have hresponse : ∀ other, s.api.dispatch message = .answer other → Encodable C s.encrypted other := by
        intro other ho
        rw [hd] at ho
        cases ho
        exact hencodable
      have hkind := dispatch_disconnect s.api hd
      by_cases hdisconnect : isDisconnectRequest message = true
      · have hresponds : isDisconnectResponse response = true :=
          decide_eq_true (hkind.mpr (of_decide_eq_true hdisconnect))
        rw [if_pos hresponds] at hstate
        have hquiet := sturdy_stopped hC.proto hanswered rfl hstate hrest
        exact .disconnect hquiet hdisconnect hresponse hforward
      · have hresponds : ¬ isDisconnectResponse response = true :=
          fun hr => hdisconnect (decide_eq_true (hkind.mp (of_decide_eq_true hr)))
        rw [if_neg hresponds] at hstate
        have hmore := ih hanswered ⟨rfl, hstate, hwaiting, hempty, hkeyed⟩ hrest
        exact hmore.cons rfl rfl (Bool.not_eq_true _ ▸ hdisconnect) hresponse hforward
    · have hnone : ∀ response, s.api.dispatch message ≠ .answer response :=
        fun response hd => hanswer ⟨response, hd⟩
      obtain ⟨hstate, hcancelled, hk, hunread, -⟩ := ReadLoop.dispatched_unanswered c.receiverAlive r
        message (fun hdead forwarded hf => hforward hdead ⟨forwarded, hf⟩) hnone
      rw [← hk, ← hunread] at hrest
      have hmore := ih hnext
        ⟨hstate.trans hreading, hi.polling, hcancelled.trans hwaiting, hi.empty, hi.keyed⟩ hrest
      exact hmore.cons rfl rfl (not_disconnectRequest hnone)
        (fun response hd => absurd hd (hnone response)) hforward

end Requests

section Initial

variable {e : Established C} {received : List (ProtoMessage C.proto)}

theorem idle_initial (hk : s.encrypted = true → e.encryptCypher.isSome) : Idle s (initial e) :=
  ⟨rfl, rfl, rfl, rfl, hk⟩

theorem sturdy_send (hC : C.Lawful) (h : Sturdy s a c) (hi : Idle s c) (halive : c.senderAlive = true)
    {message : ProtoMessage C.proto} (hm : a.sends message) :
    Encodable C s.encrypted message ∧ ∃ w answers, Sturdy s a { c with writer := w, answers := answers } ∧
      answers.queue = [] ∧ (s.encrypted = true → w.encryptCypher.isSome) ∧
      w.state = if isDisconnectResponse message then .stopped else .pollCancellation := by
  have hsent : Sturdy s a { c with answers := c.answers.push (.application 0, message) } :=
    h.step (.send 0 message) hm
      (by simp [State.step, halive, WriteLoop.running, hi.polling, State.hasRoom, hi.empty, capacity])
  exact hsent.drain hC hi.polling hi.waiting hi.keyed (.application 0) message
    (by simp [Mpsc.push, hi.empty])

theorem sturdy_not_deserted (hP : C.proto.Lawful) (h : Sturdy s a c) (hi : Idle s c)
    (hdead : c.senderAlive = false) (hs : s.streamEnds = true)
    (ht : Traffic C s.encrypted c.reader.decryptCypher c.reader.unread []) : False := by
  have hpolled : Sturdy s a { c with writer := { c.writer with state := .pollAnswers } } :=
    h.step (.write 0) trivial
      (by simp [State.step, State.writeStep, hi.polling, WriteLoop.pollCancellation, hi.waiting])
  obtain ⟨r, hfinished⟩ := hpolled.finish hP hi.reading hs ht
  have hstopped := hfinished.step .read trivial
    (by simp only [State.step, State.readStep, ReadLoop.finish]; rfl)
  have hdeserted := hstopped.step (.write 0) trivial
    (by simp [State.step, State.writeStep, State.recv, Mpsc.pop, hi.empty, hdead, readerHoldsSender]; rfl)
  exact hdeserted.sound (.inr ⟨_, rfl⟩)

theorem harmless_of_crash_free (hC : C.Lawful) (hk : s.encrypted = true → e.encryptCypher.isSome)
    (ht : Traffic C s.encrypted e.decryptCypher (e.src.data ++ e.incoming.flatten) received)
    (h : CrashFree s e a) : Harmless s a received := by
  have hsturdy : Sturdy s a (initial e) := h
  have hidle := idle_initial hk
  have hwithstood := sturdy_withstood hC hsturdy hidle ht
  refine ⟨hwithstood.after_disconnect, ?_, ?_, hwithstood.answers_encodable, ?_, ?_⟩
  · intro response hm hd
    obtain ⟨-, w, answers, hnext, -, -, hstate⟩ := sturdy_send hC hsturdy hidle rfl hm
    rw [if_pos hd] at hstate
    have hquiet := sturdy_stopped hC.proto hnext rfl hstate ht
    exact fun message hmessage => (hquiet message hmessage).1
  · exact fun message hm => (sturdy_send hC hsturdy hidle rfl hm).1
  · intro hdrops
    have hnext := hsturdy.step .dropReceiver hdrops rfl
    exact (sturdy_withstood hC hnext ⟨rfl, rfl, rfl, rfl, hk⟩ ht).receiver rfl
  · intro hdrops hs
    by_contra hnone
    have hnext := hsturdy.step .dropSender hdrops rfl
    obtain ⟨d, hd, hdi, hdead, hdt⟩ := (sturdy_withstood hC hnext ⟨rfl, rfl, rfl, rfl, hk⟩ ht).drained
      fun message hm => by
        by_contra hdisconnect
        exact hnone ⟨message, hm, by rwa [Bool.not_eq_false] at hdisconnect⟩
    exact sturdy_not_deserted hC.proto hd hdi hdead hs hdt

end Initial

end EsphomeNativeApi.Withstanding
