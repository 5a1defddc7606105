import EsphomeNativeApi.EncryptionEnforced
import EsphomeNativeApi.Progress
import EsphomeNativeApi.Withstanding

/-!
Exactly which clients and applications a connection withstands, in every order of steps.
-/

namespace EsphomeNativeApi.CrashFreedom

open RustSemantics MessageTable Frames FrameFormat PacketEncrypted Api Start Channels Runs ReadLoops WriteLoops
open ClientTraffic Connection ReadHistories Histories EncryptionEnforced Applications Safety Withstanding Progress

variable {C : Crates}

theorem established_keyed (hC : C.Lawful) {api : EspHomeApi} {chunks : List Bytes}
    {outcome : StartRun C} {e : Established C} (h : start C api chunks = .ok outcome)
    (he : outcome.result = .ok e) : e.encrypted = true → e.encryptCypher.isSome := by
  intro hencrypted
  rcases start_admits hC h he with ⟨-, -, hplain⟩ | ⟨-, -, hcipher, -⟩
  · rw [hplain] at hencrypted
    cases hencrypted
  · exact hcipher

/-- A client of an application that keeps its ends of the channels and sends only what can
be encoded. -/
theorem traffic_crash_free_iff (C : Crates) (hC : C.Lawful) (api : EspHomeApi) (chunks : List Bytes)
    (outcome : StartRun C) (e : Established C) (hstart : start C api chunks = .ok outcome)
    (he : outcome.result = .ok e) (streamEnds debugEnabled : Bool)
    (received : List (ProtoMessage C.proto))
    (ht : Traffic C e.encrypted e.decryptCypher (e.src.data ++ e.incoming.flatten) received)
    (sends : ProtoMessage C.proto → Prop) (hsends : ∀ message, sends message → Encodable C e.encrypted message) :
    let s : Session := ⟨api, e.encrypted, streamEnds, debugEnabled⟩
    CrashFree s e ⟨sends, false, false⟩ ↔
      QuietAfterDisconnect s received ∧ AnswersEncodable C s received ∧
        ∀ response, sends response → isDisconnectResponse response = true →
          ∀ message ∈ received, ¬ Answered s message := by
  intro s
  have hk := established_keyed hC hstart he
  constructor
  · intro h
    have hh : Harmless s ⟨sends, false, false⟩ received := harmless_of_crash_free hC hk ht h
    exact ⟨hh.after_disconnect, hh.answers_encodable, hh.disconnects⟩
  · rintro ⟨hafter, hencodable, hdisconnects⟩
    have hh : Harmless s ⟨sends, false, false⟩ received :=
      ⟨hafter, hdisconnects, hsends, hencodable, by simp, by simp⟩
    exact crash_free_of_harmless hC hk ht hh

def testDevice : EspHomeApi := { name := "test-device" }

def plaintextStart (chunks : List Bytes) : Established tagCrates := ⟨false, .empty, chunks, none, none⟩

def hasPanicked (r : ReadLoop C) : Bool :=
  match r.state with
  | .panicked _ => true
  | _ => false

theorem run_panics (s : Session) (c : State C) (actions : List (Action C.proto))
    (h : (run (State.step s) c actions).any (fun d => hasPanicked d.reader) = true) :
    ∃ d, run (State.step s) c actions = some d ∧ panicked d.reader := by
  obtain ⟨d, hd, hp⟩ := (Option.any_eq_true _ _).mp h
  refine ⟨d, hd, ?_⟩
  unfold hasPanicked at hp
  split at hp
  · exact ⟨_, by assumption⟩
  · cases hp

theorem emptyMessage_encodable (kind : MessageKind) : Encodable tagCrates false ⟨kind, []⟩ := by
  change 1 ≤ 8 * 1024 * 1024
  decide

theorem ping_after_disconnect_crashes :
    ∃ outcome c, start tagCrates testDevice [[0, 0, 5, 0, 0, 7]] = .ok outcome ∧
      outcome.result = .ok (plaintextStart [[0, 0, 5, 0, 0, 7]]) ∧
      Traffic tagCrates false none [0, 0, 5, 0, 0, 7] [⟨.disconnectRequest, []⟩, ⟨.pingRequest, []⟩] ∧
      run (State.step ⟨testDevice, false, false, false⟩) (initial (plaintextStart [[0, 0, 5, 0, 0, 7]]))
        [.read, .read, .read, .write 0, .write 0, .write 100, .read, .read] = some c ∧
      panicked c.reader := by
  obtain ⟨c, hrun, hpanicked⟩ := run_panics ⟨testDevice, false, false, false⟩
    (initial (plaintextStart [[0, 0, 5, 0, 0, 7]]))
    [.read, .read, .read, .write 0, .write 0, .write 100, .read, .read] (by decide +kernel)
  refine ⟨_, c, rfl, rfl, ?_, hrun, hpanicked⟩
  exact traffic_emptyFrame 5 _ rfl (traffic_emptyFrame 7 [] rfl (.done _))

theorem traffic_crash_free_ping_then_disconnect :
    ∃ outcome e, start tagCrates testDevice [[0, 0, 7, 0, 0, 5]] = .ok outcome ∧ outcome.result = .ok e ∧
      CrashFree ⟨testDevice, e.encrypted, true, true⟩ e
        ⟨fun message => message = ⟨.pingResponse, []⟩, false, false⟩ := by
  refine ⟨_, _, rfl, rfl, ?_⟩
  refine (traffic_crash_free_iff tagCrates tagCrates_lawful testDevice [[0, 0, 7, 0, 0, 5]] _ _ rfl rfl true true
    [⟨.pingRequest, []⟩, ⟨.disconnectRequest, []⟩]
    (traffic_emptyFrame 7 _ rfl (traffic_emptyFrame 5 [] rfl (.done _)))
    (fun message => message = ⟨.pingResponse, []⟩) ?_).mpr ⟨?_, ?_, ?_⟩
  · rintro message rfl
    exact emptyMessage_encodable .pingResponse
  · exact .cons (fun _ _ hd => nomatch hd) (.cons (List.forall_mem_nil _) .nil)
  · refine List.forall_mem_cons.mpr ⟨?_, List.forall_mem_cons.mpr ⟨?_, List.forall_mem_nil _⟩⟩
    · rintro response ⟨⟩
      exact emptyMessage_encodable .pingResponse
    · rintro response ⟨⟩
      exact emptyMessage_encodable .disconnectResponse
  · rintro response rfl hd
    cases hd

/-- No loop crashes, and in every state the loops alone give all answers that the client's
messages call for. -/
def Undisturbed (s : Session) (e : Established C) (a : Application C.proto)
    (received : List (ProtoMessage C.proto)) : Prop :=
  CrashFree s e a ∧ ∀ c, Reached s e a c → ∃ d, LoopsReach s c d ∧
    acceptedFrom d .readLoop = received.filterMap fun message => (s.api.dispatch message).answer?

/-- An application that may do anything but send a `DisconnectResponse`, and a client that
does not disconnect. -/
theorem undisturbed_iff (C : Crates) (hC : C.Lawful) (api : EspHomeApi) (chunks : List Bytes)
    (outcome : StartRun C) (e : Established C) (hstart : start C api chunks = .ok outcome)
    (he : outcome.result = .ok e) (streamEnds debugEnabled : Bool)
    (received : List (ProtoMessage C.proto))
    (ht : Traffic C e.encrypted e.decryptCypher (e.src.data ++ e.incoming.flatten) received)
    (hstays : ∀ message ∈ received, isDisconnectRequest message = false)
    (a : Application C.proto) (hstays' : ∀ message, a.sends message → isDisconnectResponse message = false) :
    let s : Session := ⟨api, e.encrypted, streamEnds, debugEnabled⟩
    Undisturbed s e a received ↔
      (∀ message, a.sends message → Encodable C e.encrypted message) ∧ AnswersEncodable C s received ∧
        (a.dropsReceiver = true → ∀ message ∈ received, ¬ Forwarded s message) ∧
        ¬ (a.dropsSender = true ∧ streamEnds = true) := by
  intro s
  have hk : s.encrypted = true → e.encryptCypher.isSome := established_keyed hC hstart he
  constructor
  · rintro ⟨h, -⟩
    have hh : Harmless s a received := harmless_of_crash_free hC hk ht h
    refine ⟨hh.sends_encodable, hh.answers_encodable, hh.receiver, ?_⟩
    intro hends
    obtain ⟨message, hm, hd⟩ := hh.sender hends.1 hends.2
    rw [hstays message hm] at hd
    cases hd
  · rintro ⟨hencodable, hanswers, hreceiver, hsender⟩
    have hafter : QuietAfterDisconnect s received := by
      apply List.pairwise_of_forall_mem_list
      intro request hm _ _ hd
      rw [hstays request hm] at hd
      cases hd
    have hdisconnects : ∀ response, a.sends response → isDisconnectResponse response = true →
        ∀ message ∈ received, ¬ Answered s message := by
      intro response hm hd
      rw [hstays' response hm] at hd
      cases hd
    have hh : Harmless s a received :=
      ⟨hafter, hdisconnects, hencodable, hanswers, hreceiver, fun hdrops hends => absurd ⟨hdrops, hends⟩ hsender⟩
    exact ⟨crash_free_of_harmless hC hk ht hh, fun c hc => answers_all hC hk ht hh hc⟩

theorem dropped_receiver_crashes :
    ∃ outcome c, start tagCrates testDevice [[0, 0, 11]] = .ok outcome ∧
      outcome.result = .ok (plaintextStart [[0, 0, 11]]) ∧
      Traffic tagCrates false none [0, 0, 11] [⟨.listEntitiesRequest, []⟩] ∧
      run (State.step ⟨testDevice, false, false, false⟩) (initial (plaintextStart [[0, 0, 11]]))
        [.dropReceiver, .read, .read] = some c ∧
      panicked c.reader := by
  obtain ⟨c, hrun, hpanicked⟩ := run_panics ⟨testDevice, false, false, false⟩
    (initial (plaintextStart [[0, 0, 11]])) [.dropReceiver, .read, .read] (by decide +kernel)
  refine ⟨_, c, rfl, rfl, ?_, hrun, hpanicked⟩
  exact traffic_emptyFrame 11 [] rfl (.done _)

theorem undisturbed_pinging_client :
    ∃ outcome e, start tagCrates testDevice [[0, 0, 7]] = .ok outcome ∧ outcome.result = .ok e ∧
      Undisturbed ⟨testDevice, e.encrypted, false, true⟩ e
        ⟨fun message => message = ⟨.pingResponse, []⟩, true, true⟩ [⟨.pingRequest, []⟩] := by
  refine ⟨_, _, rfl, rfl, ?_⟩
  refine (undisturbed_iff tagCrates tagCrates_lawful testDevice [[0, 0, 7]] _ _ rfl rfl false true
    [⟨.pingRequest, []⟩] (traffic_emptyFrame 7 [] rfl (.done _)) (by simp [isDisconnectRequest])
    ⟨fun message => message = ⟨.pingResponse, []⟩, true, true⟩ ?_).mpr ⟨?_, ?_, ?_, ?_⟩
  · rintro message rfl
    rfl
  · rintro message rfl
    exact emptyMessage_encodable .pingResponse
  · refine List.forall_mem_cons.mpr ⟨?_, List.forall_mem_nil _⟩
    rintro response ⟨⟩
    exact emptyMessage_encodable .pingResponse
  · refine fun _ => List.forall_mem_cons.mpr ⟨?_, List.forall_mem_nil _⟩
    rintro ⟨forwarded, ⟨⟩⟩
  · simp

end EsphomeNativeApi.CrashFreedom
