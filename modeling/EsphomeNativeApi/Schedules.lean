import EsphomeNativeApi.Safety

/-!
Orders of steps: the loops alone bring a client's message to its dispatch, and an answer
to the wire.
-/

namespace EsphomeNativeApi.Schedules

open RustSemantics MessageTable Frames FrameFormat FrameEncoding Framing PacketEncrypted Api Start
open Channels Runs ReadLoops WriteLoops ClientTraffic Connection ReadHistories WriteHistories Histories
open Applications Safety

variable {C : Crates} {s : Session} {a : Application C.proto} {c d : State C}

def Sturdy (s : Session) (a : Application C.proto) (c : State C) : Prop :=
  ∀ d, Reaches (State.step s) a.Allows c d → ¬ Crashed d

theorem Sturdy.sound (h : Sturdy s a c) : ¬ Crashed c := h c (.refl c)

theorem Sturdy.reaches (h : Sturdy s a c) (hd : Reaches (State.step s) a.Allows c d) : Sturdy s a d :=
  fun u hu => h u (hd.trans hu)

theorem Sturdy.step (h : Sturdy s a c) (action : Action C.proto) (ha : a.Allows action)
    (ht : c.step s action = some d) : Sturdy s a d :=
  h.reaches (.single action ha ht)

section Reader

variable {request : ProtoMessage C.proto} {rest : List (ProtoMessage C.proto)}

theorem read_step {r : ReadLoop C} (hr : c.reader.state = .reading)
    (hread : c.reader.read s c.receiverAlive = some r) : c.step s .read = some { c with reader := r } := by
  simp [State.step, State.readStep, hr, hread]

def Dispatches (s : Session) (c : State C) (request : ProtoMessage C.proto)
    (rest : List (ProtoMessage C.proto)) : Prop :=
  ∃ r : ReadLoop C, Reaches (State.step s) (fun action => action = .read) c
      { c with reader := r.dispatched s c.receiverAlive request } ∧
    r.state = .reading ∧ r.cancellation = c.reader.cancellation ∧
    messages r = messages c.reader ++ [request] ∧ Traffic C s.encrypted r.decryptCypher r.unread rest

theorem dispatches_frame (hP : C.proto.Lawful) (hr : c.reader.state = .reading)
    (ht : Traffic C s.encrypted c.reader.decryptCypher c.reader.unread (request :: rest))
    {frame left : Bytes} (hp : parse s.encrypted c.reader.src.data = .frame frame left) :
    Dispatches s c request rest := by
  obtain ⟨m, k, more, heq, hc, hmore⟩ := traffic_frame ht hp
  cases heq
  obtain ⟨src, rfl, hread⟩ := ReadLoop.read_frame c.receiverAlive hP hp
  rw [handle_carries (r := { c.reader with src := src }) hc] at hread
  refine ⟨_, .single .read rfl (read_step hr hread), hr, rfl, ?_, hmore⟩
  simp [messages, ReadLoop.opened]

theorem dispatches_message (hP : C.proto.Lawful) (hr : c.reader.state = .reading)
    (ht : Traffic C s.encrypted c.reader.decryptCypher c.reader.unread (request :: rest)) :
    Dispatches s c request rest := by
  induction hi : c.reader.incoming generalizing c with
  | nil =>
    cases hp : parse s.encrypted c.reader.src.data with
    | frame frame left => exact dispatches_frame hP hr ht hp
    | fail e => exact absurd hp (traffic_not_fail ht e)
    | incomplete =>
      rw [ReadLoop.unread, hi, List.flatten_nil, List.append_nil] at ht
      rw [traffic_incomplete ht hp] at ht
      cases traffic_nil ht
  | cons chunk chunks ih =>
    cases hp : parse s.encrypted c.reader.src.data with
    | frame frame left => exact dispatches_frame hP hr ht hp
    | fail e => exact absurd hp (traffic_not_fail ht e)
    | incomplete =>
      obtain ⟨src, hsrc, hread⟩ := ReadLoop.read_chunk c.receiverAlive hP hp hi
      rw [← ReadLoop.unread_chunk hi hsrc] at ht
      obtain ⟨r, hreaches, hrest⟩ :=
        ih (c := { c with reader := { c.reader with src := src, incoming := chunks } }) hr ht rfl
      exact ⟨r, .trans (.single .read rfl (read_step hr hread)) hreaches, hrest⟩

theorem Sturdy.message (hP : C.proto.Lawful) (h : Sturdy s a c) (hr : c.reader.state = .reading)
    (ht : Traffic C s.encrypted c.reader.decryptCypher c.reader.unread (request :: rest)) :
    ∃ r : ReadLoop C, Sturdy s a { c with reader := r.dispatched s c.receiverAlive request } ∧
      r.state = .reading ∧ r.cancellation = c.reader.cancellation ∧
      Traffic C s.encrypted r.decryptCypher r.unread rest := by
  obtain ⟨r, hreaches, hreading, hcancel, -, hrest⟩ := dispatches_message hP hr ht
  have hallowed : ∀ action : Action C.proto, action = .read → a.Allows action := by
    rintro action rfl
    trivial
  exact ⟨r, h.reaches (hreaches.mono hallowed), hreading, hcancel, hrest⟩

theorem Sturdy.finish (hP : C.proto.Lawful) (h : Sturdy s a c) (hr : c.reader.state = .reading)
    (hs : s.streamEnds = true)
    (ht : Traffic C s.encrypted c.reader.decryptCypher c.reader.unread []) :
    ∃ r : ReadLoop C, Sturdy s a { c with reader := r.finish } := by
  induction hi : c.reader.incoming generalizing c with
  | nil =>
    have hsrc := (List.append_eq_nil_iff.mp (traffic_done ht)).1
    have hp : parse s.encrypted c.reader.src.data = .incomplete :=
      hsrc ▸ (decoder s.encrypted).nil_incomplete
    obtain ⟨src, -, hread⟩ := ReadLoop.read_end c.receiverAlive hP hp hi hs
    rw [if_pos hsrc] at hread
    exact ⟨_, h.step .read trivial (read_step hr hread)⟩
  | cons chunk chunks ih =>
    have hsrc := (List.append_eq_nil_iff.mp (traffic_done ht)).1
    have hp : parse s.encrypted c.reader.src.data = .incomplete :=
      hsrc ▸ (decoder s.encrypted).nil_incomplete
    obtain ⟨src, hsrc, hread⟩ := ReadLoop.read_chunk c.receiverAlive hP hp hi
    have hnext := h.step .read trivial (read_step hr hread)
    rw [← ReadLoop.unread_chunk hi hsrc] at ht
    obtain ⟨r, hnext⟩ := ih hnext hr ht rfl
    exact ⟨r, hnext⟩

end Reader

section Writer

structure Idle (s : Session) (c : State C) : Prop where
  reading : c.reader.state = .reading
  polling : c.writer.state = .pollCancellation
  waiting : c.reader.cancellation = .waiting
  empty : c.answers.queue = []
  keyed : s.encrypted = true → c.writer.encryptCypher.isSome

theorem Sturdy.drain (hC : C.Lawful) (h : Sturdy s a c) (hw : c.writer.state = .pollCancellation)
    (hwaiting : c.reader.cancellation = .waiting)
    (hkeyed : s.encrypted = true → c.writer.encryptCypher.isSome)
    (producer : Producer) (message : ProtoMessage C.proto) (hq : c.answers.queue = [(producer, message)]) :
    Encodable C s.encrypted message ∧ ∃ w answers, Sturdy s a { c with writer := w, answers := answers } ∧
      answers.queue = [] ∧ (s.encrypted = true → w.encryptCypher.isSome) ∧
      w.state = if isDisconnectResponse message then .stopped else .pollCancellation := by
  have hpolled : Sturdy s a { c with writer := { c.writer with state := .pollAnswers } } :=
    h.step (.write 0) trivial
      (by simp [State.step, State.writeStep, hw, WriteLoop.pollCancellation, hwaiting])
  have hpop : c.answers.pop = some ((producer, message), ⟨c.answers.taken ++ [(producer, message)], []⟩) := by
    rw [Mpsc.pop, hq]
  have htook := hpolled.step (.write 0) trivial
    (by simp only [State.step, State.writeStep, State.recv, hpop]; rfl)
  have hencodable : Encodable C s.encrypted message := by
    by_contra hnot
    cases hs : sealAnswer C s.encrypted c.writer.encryptCypher message with
    | error p => exact htook.sound (.inr ⟨p, by simp [WriteLoop.answer, hs]⟩)
    | ok result =>
      obtain ⟨packet, hseals, -⟩ := (sealAnswer_ok_iff hC.proto _ _ _ _ _).mp hs
      exact hnot (seals_encodable hC.aead hseals)
  refine ⟨hencodable, ?_⟩
  obtain ⟨pending, k', ha, hk⟩ := answer_encodable (w := { c.writer with state := .pollAnswers }) hC hkeyed
    hencodable
  rw [ha] at htook
  have hwrote := htook.step (.write pending.length) trivial
    (by simp only [State.step, State.writeStep]; rfl)
  refine ⟨_, _, hwrote, rfl, ?_, ?_⟩
  · rw [WriteLoop.write, if_pos (le_refl _)]
    exact hk
  · rw [WriteLoop.write, if_pos (le_refl _)]

theorem Sturdy.answer (hC : C.Lawful) (h : Sturdy s a c) {response : ProtoMessage C.proto}
    (hr : c.reader.state = .answering response) (hw : c.writer.state = .pollCancellation)
    (hwaiting : c.reader.cancellation = .waiting) (hempty : c.answers.queue = [])
    (hkeyed : s.encrypted = true → c.writer.encryptCypher.isSome) :
    Encodable C s.encrypted response ∧ ∃ w answers,
      Sturdy s a { c with reader := { c.reader with state := .reading }, writer := w, answers := answers } ∧
      answers.queue = [] ∧ (s.encrypted = true → w.encryptCypher.isSome) ∧
      w.state = if isDisconnectResponse response then .stopped else .pollCancellation := by
  have hpushed := h.step .read trivial
    (by simp [State.step, State.readStep, hr, WriteLoop.running, hw, State.hasRoom, hempty, capacity]; rfl)
  exact hpushed.drain hC hw hwaiting hkeyed .readLoop response (by simp [Mpsc.push, hempty])

end Writer

end EsphomeNativeApi.Schedules
