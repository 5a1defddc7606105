import EsphomeNativeApi.Histories

/-!
What an application and a client may do to a connection, and when that can crash it.
-/

namespace EsphomeNativeApi.Applications

open MessageTable Api Start Runs ReadLoops WriteLoops Connection ReadHistories

variable {C : Crates}

structure Application (P : Proto) where
  sends : ProtoMessage P → Prop
  dropsReceiver : Bool
  dropsSender : Bool

def Application.Allows {P : Proto} (a : Application P) : Action P → Prop
  | .send _ message => a.sends message
  | .dropReceiver => a.dropsReceiver = true
  | .dropSender => a.dropsSender = true
  | _ => True

def Crashed (c : State C) : Prop := panicked c.reader ∨ ∃ p, c.writer.state = .panicked p

def Reached (s : Session) (e : Established C) (a : Application C.proto) (c : State C) : Prop :=
  Reaches (State.step s) a.Allows (initial e) c

def CrashFree (s : Session) (e : Established C) (a : Application C.proto) : Prop :=
  ∀ c, Reached s e a c → ¬ Crashed c

def Answered (s : Session) {P : Proto} (message : ProtoMessage P) : Prop :=
  ∃ response, s.api.dispatch message = .answer response

def Forwarded (s : Session) {P : Proto} (message : ProtoMessage P) : Prop :=
  ∃ forwarded, s.api.dispatch message = .forward forwarded

def isDisconnectRequest {P : Proto} (message : ProtoMessage P) : Bool :=
  message.kind = .disconnectRequest

def QuietAfterDisconnect (s : Session) {P : Proto} (received : List (ProtoMessage P)) : Prop :=
  received.Pairwise fun request later => isDisconnectRequest request = true → ¬ Answered s later

def AnswersEncodable (C : Crates) (s : Session) (received : List (ProtoMessage C.proto)) : Prop :=
  ∀ message ∈ received, ∀ response, s.api.dispatch message = .answer response →
    Encodable C s.encrypted response

structure Harmless (s : Session) (a : Application C.proto) (received : List (ProtoMessage C.proto)) :
    Prop where
  after_disconnect : QuietAfterDisconnect s received
  disconnects : ∀ response, a.sends response → isDisconnectResponse response = true →
    ∀ message ∈ received, ¬ Answered s message
  sends_encodable : ∀ message, a.sends message → Encodable C s.encrypted message
  answers_encodable : AnswersEncodable C s received
  receiver : a.dropsReceiver = true → ∀ message ∈ received, ¬ Forwarded s message
  sender : a.dropsSender = true → s.streamEnds = true →
    ∃ message ∈ received, isDisconnectRequest message = true

end EsphomeNativeApi.Applications
