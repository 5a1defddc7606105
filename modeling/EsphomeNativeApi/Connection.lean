import EsphomeNativeApi.WriteLoops
import EsphomeNativeApi.Runs

/-!
A connection: the two loops, the application, and the channels between them. Any of them
may take the next step.
-/

namespace EsphomeNativeApi.Connection

open RustSemantics MessageTable Frames PacketEncrypted Start Channels ReadLoops WriteLoops

inductive Producer where
  | readLoop
  | application (task : ℕ)
  deriving DecidableEq

structure State (C : Crates) where
  reader : ReadLoop C
  writer : WriteLoop C
  answers : Mpsc (Producer × ProtoMessage C.proto)
  receiverAlive : Bool
  senderAlive : Bool

inductive Action (P : Proto) where
  | read
  | write (count : ℕ)
  | send (task : ℕ) (message : ProtoMessage P)
  | receive
  | dropReceiver
  | dropSender

def capacity : ℕ := 16

variable {C : Crates}

def initial (established : Established C) : State C where
  reader := .new established.src established.incoming established.decryptCypher
  writer := .new established.encryptCypher
  answers := .empty
  receiverAlive := true
  senderAlive := true

def readerHoldsSender (r : ReadLoop C) : Bool :=
  -- the loop's senders, of answers and of broadcasts, are dropped when it ends
  match r.state with
  | .stopped | .panicked _ => false
  | _ => true

namespace State

def hasRoom (c : State C) : Bool := c.answers.queue.length < capacity

def readStep (s : Session) (c : State C) : Option (State C) :=
  match c.reader.state with
  | .reading => (c.reader.read s c.receiverAlive).map fun reader => { c with reader := reader }
  | .answering response =>
    if c.writer.running then
      if c.hasRoom then
        some { c with answers := c.answers.push (.readLoop, response), reader := { c.reader with state := .reading } }
      else none
    -- the write loop has dropped the receiving end
    else some { c with reader := c.reader.panic .unwrapErr }
  | .stopping => some { c with reader := { c.reader with state := .stopped } }
  | .stopped => none
  | .panicked _ => none

def recv (s : Session) (c : State C) : State C :=
  match c.answers.pop with
  | some ((_, message), answers) => { c with answers := answers, writer := c.writer.answer s message }
  | none =>
    -- `recv` returns `None` once the queue is empty and all senders are dropped
    if c.senderAlive || readerHoldsSender c.reader then
      { c with writer := { c.writer with state := .pollCancellation } }
    else { c with writer := { c.writer with state := .panicked .unwrapNone } }

def writeStep (s : Session) (count : ℕ) (c : State C) : Option (State C) :=
  match c.writer.state with
  | .pollCancellation => some { c with writer := c.writer.pollCancellation s c.reader.cancellation }
  | .pollAnswers => some (c.recv s)
  | .writing message pending => some { c with writer := c.writer.write count message pending }
  | .stopped => none
  | .panicked _ => none

def step (s : Session) (c : State C) : Action C.proto → Option (State C)
  | .read => c.readStep s
  | .write count => c.writeStep s count
  | .send task message =>
    if c.senderAlive && c.writer.running && c.hasRoom then
      some { c with answers := c.answers.push (.application task, message) }
    else none
  | .receive =>
    if c.receiverAlive then
      (c.reader.outgoing.receive capacity (readerHoldsSender c.reader)).map fun received =>
        { c with reader := { c.reader with outgoing := received.2 } }
    else none
  | .dropReceiver => some { c with receiverAlive := false }
  | .dropSender => some { c with senderAlive := false }

end State

inductive Transition (s : Session) (c : State C) : Action C.proto → State C → Prop where
  | polled (reader : ReadLoop C) (reading : c.reader.state = .reading)
      (reads : c.reader.Reads s c.receiverAlive reader) : Transition s c .read { c with reader := reader }
  | answered (response : ProtoMessage C.proto) (answering : c.reader.state = .answering response)
      (running : c.writer.running = true) (room : c.hasRoom = true) :
      Transition s c .read
        { c with
          answers := c.answers.push (.readLoop, response)
          reader := { c.reader with state := .reading } }
  | refused (response : ProtoMessage C.proto) (answering : c.reader.state = .answering response)
      (ended : c.writer.running = false) :
      Transition s c .read { c with reader := c.reader.panic .unwrapErr }
  | finished (stopping : c.reader.state = .stopping) :
      Transition s c .read { c with reader := { c.reader with state := .stopped } }
  | cancellationPolled (count : ℕ) (polling : c.writer.state = .pollCancellation) :
      Transition s c (.write count)
        { c with writer := c.writer.pollCancellation s c.reader.cancellation }
  | took (count : ℕ) (producer : Producer) (message : ProtoMessage C.proto)
      (answers : Mpsc (Producer × ProtoMessage C.proto)) (polling : c.writer.state = .pollAnswers)
      (popped : c.answers.pop = some ((producer, message), answers)) :
      Transition s c (.write count) { c with answers := answers, writer := c.writer.answer s message }
  | idle (count : ℕ) (polling : c.writer.state = .pollAnswers) (empty : c.answers.queue = [])
      (senders : (c.senderAlive || readerHoldsSender c.reader) = true) :
      Transition s c (.write count) { c with writer := { c.writer with state := .pollCancellation } }
  | deserted (count : ℕ) (polling : c.writer.state = .pollAnswers) (empty : c.answers.queue = [])
      (senders : (c.senderAlive || readerHoldsSender c.reader) = false) :
      Transition s c (.write count) { c with writer := { c.writer with state := .panicked .unwrapNone } }
  | wrote (count : ℕ) (message : ProtoMessage C.proto) (pending : Bytes)
      (writing : c.writer.state = .writing message pending) :
      Transition s c (.write count) { c with writer := c.writer.write count message pending }
  | sent (task : ℕ) (message : ProtoMessage C.proto) (alive : c.senderAlive = true)
      (running : c.writer.running = true) (room : c.hasRoom = true) :
      Transition s c (.send task message)
        { c with answers := c.answers.push (.application task, message) }
  | received (received : Received (ProtoMessage C.proto)) (outgoing : Broadcast (ProtoMessage C.proto))
      (alive : c.receiverAlive = true)
      (next : c.reader.outgoing.receive capacity (readerHoldsSender c.reader) = some (received, outgoing)) :
      Transition s c .receive { c with reader := { c.reader with outgoing := outgoing } }
  | receiverDropped : Transition s c .dropReceiver { c with receiverAlive := false }
  | senderDropped : Transition s c .dropSender { c with senderAlive := false }

theorem step_cases (hP : C.proto.Lawful) {s : Session} {c d : State C} {action : Action C.proto}
    (h : c.step s action = some d) : Transition s c action d := by
  cases action with
  | read =>
    simp only [State.step, State.readStep] at h
    cases hr : c.reader.state with
    | reading =>
      simp only [hr, Option.map_eq_some_iff] at h
      obtain ⟨reader, hread, rfl⟩ := h
      exact .polled reader hr (ReadLoop.read_cases hP hread)
    | answering response =>
      simp only [hr] at h
      split_ifs at h with hrun hroom
      · cases h
        exact .answered response hr hrun hroom
      · cases h
        exact .refused response hr (Bool.eq_false_iff.mpr hrun)
    | stopping =>
      simp only [hr] at h
      cases h
      exact .finished hr
    | stopped => simp [hr] at h
    | panicked p => simp [hr] at h
  | write count =>
    simp only [State.step, State.writeStep] at h
    cases hw : c.writer.state with
    | pollCancellation =>
      simp only [hw] at h
      cases h
      exact .cancellationPolled count hw
    | pollAnswers =>
      simp only [hw, State.recv] at h
      cases hp : c.answers.pop with
      | some popped =>
        simp only [hp] at h
        cases h
        exact .took count popped.1.1 popped.1.2 popped.2 hw hp
      | none =>
        simp only [hp] at h
        split_ifs at h with hs
        · cases h
          exact .idle count hw (Mpsc.pop_none hp) hs
        · cases h
          exact .deserted count hw (Mpsc.pop_none hp) (Bool.eq_false_iff.mpr hs)
    | writing message pending =>
      simp only [hw] at h
      cases h
      exact .wrote count message pending hw
    | stopped => simp [hw] at h
    | panicked p => simp [hw] at h
  | send task message =>
    simp only [State.step] at h
    split_ifs at h with hs
    cases h
    simp only [Bool.and_eq_true] at hs
    exact .sent task message hs.1.1 hs.1.2 hs.2
  | receive =>
    simp only [State.step] at h
    split_ifs at h with hs
    obtain ⟨⟨received, outgoing⟩, ho, rfl⟩ := Option.map_eq_some_iff.mp h
    exact .received received outgoing hs ho
  | dropReceiver =>
    cases h
    exact .receiverDropped
  | dropSender =>
    cases h
    exact .senderDropped

theorem ended_frame {s : Session} {c d : State C} {action : Action C.proto}
    (hended : c.writer.running = false) (ht : Transition s c action d) :
    d.writer = c.writer ∧ d.answers = c.answers := by
  cases ht with
  | answered response answering running room => cases running.symm.trans hended
  | cancellationPolled count polling => simp [WriteLoop.running, polling] at hended
  | took count producer message answers polling popped => simp [WriteLoop.running, polling] at hended
  | idle count polling empty senders => simp [WriteLoop.running, polling] at hended
  | deserted count polling empty senders => simp [WriteLoop.running, polling] at hended
  | wrote count message pending writing => simp [WriteLoop.running, writing] at hended
  | sent task message alive running room => cases running.symm.trans hended
  | _ => exact ⟨rfl, rfl⟩

end EsphomeNativeApi.Connection
