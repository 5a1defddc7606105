import EsphomeNativeApi.Packets

/-!
The configuration of `EspHomeApi`, and which message it answers, ignores or forwards.
-/

namespace EsphomeNativeApi.Api

open RustSemantics MessageTable

structure EspHomeApi where
  name : String
  encryptionKey : Option String := none
  apiVersionMajor : ℕ := 1
  apiVersionMinor : ℕ := 10
  serverInfo : String := "Rust: esphome-native-api"
  friendlyName : Option String := none
  mac : Option String := none
  model : Option String := none
  manufacturer : Option String := none
  suggestedArea : Option String := none
  bluetoothMacAddress : Option String := none
  projectName : Option String := none
  projectVersion : Option String := none
  compilationTime : Option String := none
  legacyBluetoothProxyVersion : ℕ := 0
  bluetoothProxyFeatureFlags : ℕ := 0
  legacyVoiceAssistantVersion : ℕ := 0
  voiceAssistantFeatureFlags : ℕ := 0

def EspHomeApi.deviceInfo (P : Proto) (api : EspHomeApi) : DeviceInfoResponse P.AreaInfo P.DeviceInfo where
  apiEncryptionSupported := api.encryptionKey.isSome
  usesPassword := false
  name := api.name
  macAddress := api.mac.getD ""
  esphomeVersion := P.version
  compilationTime := api.compilationTime.getD ""
  model := api.model.getD ""
  hasDeepSleep := false
  projectName := api.projectName.getD ""
  projectVersion := api.projectVersion.getD ""
  webserverPort := 0
  legacyBluetoothProxyVersion := api.legacyBluetoothProxyVersion
  bluetoothProxyFeatureFlags := api.bluetoothProxyFeatureFlags
  manufacturer := api.manufacturer.getD ""
  friendlyName := api.friendlyName.getD api.name
  legacyVoiceAssistantVersion := api.legacyVoiceAssistantVersion
  voiceAssistantFeatureFlags := api.voiceAssistantFeatureFlags
  suggestedArea := api.suggestedArea.getD ""
  bluetoothMacAddress := api.bluetoothMacAddress.getD ""
  areas := []
  devices := []
  area := none
  zwaveProxyFeatureFlags := 0
  zwaveHomeId := 0

def EspHomeApi.helloResponse (api : EspHomeApi) : HelloResponse where
  apiVersionMajor := api.apiVersionMajor
  apiVersionMinor := api.apiVersionMinor
  serverInfo := api.serverInfo
  name := api.name

inductive Dispatch (P : Proto) where
  | answer (response : ProtoMessage P)
  | ignore
  | forward (message : ProtoMessage P)

variable {P : Proto}

def EspHomeApi.dispatch (api : EspHomeApi) (message : ProtoMessage P) : Dispatch P :=
  match message with
  | ⟨.disconnectRequest, _⟩ => .answer ⟨.disconnectResponse, P.disconnectResponse⟩
  | ⟨.pingRequest, _⟩ => .answer ⟨.pingResponse, P.pingResponse⟩
  | ⟨.deviceInfoRequest, _⟩ => .answer ⟨.deviceInfoResponse, P.deviceInfoResponse (api.deviceInfo P)⟩
  | ⟨.helloRequest, _⟩ => .answer ⟨.helloResponse, P.helloResponse api.helloResponse⟩
  | ⟨.authenticationRequest, request⟩ =>
    if P.password request ≠ "" then .ignore
    else .answer ⟨.authenticationResponse, P.authenticationResponse false⟩
  | message => .forward message

def Dispatch.answer? : Dispatch P → Option (ProtoMessage P)
  | .answer response => some response
  | _ => none

def Dispatch.forward? : Dispatch P → Option (ProtoMessage P)
  | .forward message => some message
  | _ => none

theorem dispatch_answer? {d : Dispatch P} {response : ProtoMessage P} (h : d.answer? = some response) :
    d = .answer response := by
  cases d <;> simp_all [Dispatch.answer?]

theorem dispatch_forward? {d : Dispatch P} {message : ProtoMessage P} (h : d.forward? = some message) :
    d = .forward message := by
  cases d <;> simp_all [Dispatch.forward?]

theorem dispatch_forward {api : EspHomeApi} {message forwarded : ProtoMessage P}
    (h : api.dispatch message = .forward forwarded) : forwarded = message := by
  unfold EspHomeApi.dispatch at h
  split at h <;> try cases h
  · split at h <;> cases h
  · rfl

theorem dispatch_disconnect (api : EspHomeApi) {message response : ProtoMessage P}
    (h : api.dispatch message = .answer response) :
    response.kind = .disconnectResponse ↔ message.kind = .disconnectRequest := by
  unfold EspHomeApi.dispatch at h
  split at h <;> try cases h
  all_goals try simp
  · split at h <;> cases h
    simp

theorem dispatch_disconnectRequest (api : EspHomeApi) {message : ProtoMessage P}
    (h : message.kind = .disconnectRequest) :
    api.dispatch message = .answer ⟨.disconnectResponse, P.disconnectResponse⟩ := by
  obtain ⟨kind, body⟩ := message
  cases h
  rfl

end EsphomeNativeApi.Api
