import EsphomeNativeApi.Varint

/-!
The table of message types, and the enum and the three functions that the source's
macro generates from it.
-/

namespace EsphomeNativeApi.MessageTable

open RustSemantics

inductive MessageKind where
  | helloRequest | helloResponse | authenticationRequest | authenticationResponse
  | disconnectRequest | disconnectResponse | pingRequest | pingResponse | deviceInfoRequest
  | deviceInfoResponse | listEntitiesRequest | listEntitiesBinarySensorResponse
  | listEntitiesCoverResponse | listEntitiesFanResponse | listEntitiesLightResponse
  | listEntitiesSensorResponse | listEntitiesSwitchResponse | listEntitiesTextSensorResponse
  | listEntitiesDoneResponse | subscribeStatesRequest | binarySensorStateResponse
  | coverStateResponse | fanStateResponse | lightStateResponse | sensorStateResponse
  | switchStateResponse | textSensorStateResponse | subscribeLogsRequest | subscribeLogsResponse
  | coverCommandRequest | fanCommandRequest | lightCommandRequest | switchCommandRequest
  | subscribeHomeassistantServicesRequest | getTimeRequest | getTimeResponse
  | subscribeHomeAssistantStatesRequest | subscribeHomeAssistantStateResponse
  | homeAssistantStateResponse | listEntitiesServicesResponse | executeServiceRequest
  | listEntitiesCameraResponse | cameraImageResponse | cameraImageRequest
  | listEntitiesClimateResponse | climateStateResponse | climateCommandRequest
  | listEntitiesNumberResponse | numberStateResponse | numberCommandRequest
  | listEntitiesSelectResponse | selectStateResponse | selectCommandRequest
  | listEntitiesLockResponse | lockStateResponse | lockCommandRequest | listEntitiesButtonResponse
  | buttonCommandRequest | listEntitiesMediaPlayerResponse | mediaPlayerStateResponse
  | mediaPlayerCommandRequest | subscribeBluetoothLeAdvertisementsRequest
  | bluetoothLeAdvertisementResponse | bluetoothDeviceRequest | bluetoothDeviceConnectionResponse
  | bluetoothGattGetServicesRequest | bluetoothGattGetServicesResponse
  | bluetoothGattGetServicesDoneResponse | bluetoothGattReadRequest | bluetoothGattReadResponse
  | bluetoothGattWriteRequest | bluetoothGattReadDescriptorRequest
  | bluetoothGattWriteDescriptorRequest | bluetoothGattNotifyRequest
  | bluetoothGattNotifyDataResponse | subscribeBluetoothConnectionsFreeRequest
  | bluetoothConnectionsFreeResponse | bluetoothGattErrorResponse | bluetoothGattWriteResponse
  | bluetoothGattNotifyResponse | bluetoothDevicePairingResponse | bluetoothDeviceUnpairingResponse
  | unsubscribeBluetoothLeAdvertisementsRequest | bluetoothDeviceClearCacheResponse
  | subscribeVoiceAssistantRequest | voiceAssistantRequest | voiceAssistantResponse
  | voiceAssistantEventResponse | bluetoothLeRawAdvertisementsResponse
  | listEntitiesAlarmControlPanelResponse | alarmControlPanelStateResponse
  | alarmControlPanelCommandRequest | listEntitiesTextResponse | textStateResponse
  | textCommandRequest | listEntitiesDateResponse | dateStateResponse | dateCommandRequest
  | listEntitiesTimeResponse | timeStateResponse | timeCommandRequest | voiceAssistantAudio
  | listEntitiesEventResponse | eventResponse | listEntitiesValveResponse | valveStateResponse
  | valveCommandRequest | listEntitiesDateTimeResponse | dateTimeStateResponse
  | dateTimeCommandRequest | voiceAssistantTimerEventResponse | listEntitiesUpdateResponse
  | updateStateResponse | updateCommandRequest | voiceAssistantAnnounceRequest
  | voiceAssistantAnnounceFinished | voiceAssistantConfigurationRequest
  | voiceAssistantConfigurationResponse | voiceAssistantSetConfiguration
  deriving DecidableEq

structure Mapping where
  typeId : ℕ
  kind : MessageKind
  name : String

def mappings : List Mapping := [
  ⟨1, .helloRequest, "HelloRequest"⟩,
  ⟨2, .helloResponse, "HelloResponse"⟩,
  ⟨3, .authenticationRequest, "AuthenticationRequest"⟩,
  ⟨4, .authenticationResponse, "AuthenticationResponse"⟩,
  ⟨5, .disconnectRequest, "DisconnectRequest"⟩,
  ⟨6, .disconnectResponse, "DisconnectResponse"⟩,
  ⟨7, .pingRequest, "PingRequest"⟩,
  ⟨8, .pingResponse, "PingResponse"⟩,
  ⟨9, .deviceInfoRequest, "DeviceInfoRequest"⟩,
  ⟨10, .deviceInfoResponse, "DeviceInfoResponse"⟩,
  ⟨11, .listEntitiesRequest, "ListEntitiesRequest"⟩,
  ⟨12, .listEntitiesBinarySensorResponse, "ListEntitiesBinarySensorResponse"⟩,
  ⟨13, .listEntitiesCoverResponse, "ListEntitiesCoverResponse"⟩,
  ⟨14, .listEntitiesFanResponse, "ListEntitiesFanResponse"⟩,
  ⟨15, .listEntitiesLightResponse, "ListEntitiesLightResponse"⟩,
  ⟨16, .listEntitiesSensorResponse, "ListEntitiesSensorResponse"⟩,
  ⟨17, .listEntitiesSwitchResponse, "ListEntitiesSwitchResponse"⟩,
  ⟨18, .listEntitiesTextSensorResponse, "ListEntitiesTextSensorResponse"⟩,
  ⟨19, .listEntitiesDoneResponse, "ListEntitiesDoneResponse"⟩,
  ⟨20, .subscribeStatesRequest, "SubscribeStatesRequest"⟩,
  ⟨21, .binarySensorStateResponse, "BinarySensorStateResponse"⟩,
  ⟨22, .coverStateResponse, "CoverStateResponse"⟩,
  ⟨23, .fanStateResponse, "FanStateResponse"⟩,
  ⟨24, .lightStateResponse, "LightStateResponse"⟩,
  ⟨25, .sensorStateResponse, "SensorStateResponse"⟩,
  ⟨26, .switchStateResponse, "SwitchStateResponse"⟩,
  ⟨27, .textSensorStateResponse, "TextSensorStateResponse"⟩,
  ⟨28, .subscribeLogsRequest, "SubscribeLogsRequest"⟩,
  ⟨29, .subscribeLogsResponse, "SubscribeLogsResponse"⟩,
  ⟨30, .coverCommandRequest, "CoverCommandRequest"⟩,
  ⟨31, .fanCommandRequest, "FanCommandRequest"⟩,
  ⟨32, .lightCommandRequest, "LightCommandRequest"⟩,
  ⟨33, .switchCommandRequest, "SwitchCommandRequest"⟩,
  ⟨34, .subscribeHomeassistantServicesRequest, "SubscribeHomeassistantServicesRequest"⟩,
  ⟨36, .getTimeRequest, "GetTimeRequest"⟩,
  ⟨37, .getTimeResponse, "GetTimeResponse"⟩,
  ⟨38, .subscribeHomeAssistantStatesRequest, "SubscribeHomeAssistantStatesRequest"⟩,
  ⟨39, .subscribeHomeAssistantStateResponse, "SubscribeHomeAssistantStateResponse"⟩,
  ⟨40, .homeAssistantStateResponse, "HomeAssistantStateResponse"⟩,
  ⟨41, .listEntitiesServicesResponse, "ListEntitiesServicesResponse"⟩,
  ⟨42, .executeServiceRequest, "ExecuteServiceRequest"⟩,
  ⟨43, .listEntitiesCameraResponse, "ListEntitiesCameraResponse"⟩,
  ⟨44, .cameraImageResponse, "CameraImageResponse"⟩,
  ⟨45, .cameraImageRequest, "CameraImageRequest"⟩,
  ⟨46, .listEntitiesClimateResponse, "ListEntitiesClimateResponse"⟩,
  ⟨47, .climateStateResponse, "ClimateStateResponse"⟩,
  ⟨48, .climateCommandRequest, "ClimateCommandRequest"⟩,
  ⟨49, .listEntitiesNumberResponse, "ListEntitiesNumberResponse"⟩,
  ⟨50, .numberStateResponse, "NumberStateResponse"⟩,
  ⟨51, .numberCommandRequest, "NumberCommandRequest"⟩,
  ⟨52, .listEntitiesSelectResponse, "ListEntitiesSelectResponse"⟩,
  ⟨53, .selectStateResponse, "SelectStateResponse"⟩,
  ⟨54, .selectCommandRequest, "SelectCommandRequest"⟩,
  ⟨58, .listEntitiesLockResponse, "ListEntitiesLockResponse"⟩,
  ⟨59, .lockStateResponse, "LockStateResponse"⟩,
  ⟨60, .lockCommandRequest, "LockCommandRequest"⟩,
  ⟨61, .listEntitiesButtonResponse, "ListEntitiesButtonResponse"⟩,
  ⟨62, .buttonCommandRequest, "ButtonCommandRequest"⟩,
  ⟨63, .listEntitiesMediaPlayerResponse, "ListEntitiesMediaPlayerResponse"⟩,
  ⟨64, .mediaPlayerStateResponse, "MediaPlayerStateResponse"⟩,
  ⟨65, .mediaPlayerCommandRequest, "MediaPlayerCommandRequest"⟩,
  ⟨66, .subscribeBluetoothLeAdvertisementsRequest, "SubscribeBluetoothLeAdvertisementsRequest"⟩,
  ⟨67, .bluetoothLeAdvertisementResponse, "BluetoothLeAdvertisementResponse"⟩,
  ⟨68, .bluetoothDeviceRequest, "BluetoothDeviceRequest"⟩,
  ⟨69, .bluetoothDeviceConnectionResponse, "BluetoothDeviceConnectionResponse"⟩,
  ⟨70, .bluetoothGattGetServicesRequest, "BluetoothGattGetServicesRequest"⟩,
  ⟨71, .bluetoothGattGetServicesResponse, "BluetoothGattGetServicesResponse"⟩,
  ⟨72, .bluetoothGattGetServicesDoneResponse, "BluetoothGattGetServicesDoneResponse"⟩,
  ⟨73, .bluetoothGattReadRequest, "BluetoothGattReadRequest"⟩,
  ⟨74, .bluetoothGattReadResponse, "BluetoothGattReadResponse"⟩,
  ⟨75, .bluetoothGattWriteRequest, "BluetoothGattWriteRequest"⟩,
  ⟨76, .bluetoothGattReadDescriptorRequest, "BluetoothGattReadDescriptorRequest"⟩,
  ⟨77, .bluetoothGattWriteDescriptorRequest, "BluetoothGattWriteDescriptorRequest"⟩,
  ⟨78, .bluetoothGattNotifyRequest, "BluetoothGattNotifyRequest"⟩,
  ⟨79, .bluetoothGattNotifyDataResponse, "BluetoothGattNotifyDataResponse"⟩,
  ⟨80, .subscribeBluetoothConnectionsFreeRequest, "SubscribeBluetoothConnectionsFreeRequest"⟩,
  ⟨81, .bluetoothConnectionsFreeResponse, "BluetoothConnectionsFreeResponse"⟩,
  ⟨82, .bluetoothGattErrorResponse, "BluetoothGattErrorResponse"⟩,
  ⟨83, .bluetoothGattWriteResponse, "BluetoothGattWriteResponse"⟩,
  ⟨84, .bluetoothGattNotifyResponse, "BluetoothGattNotifyResponse"⟩,
  ⟨85, .bluetoothDevicePairingResponse, "BluetoothDevicePairingResponse"⟩,
  ⟨86, .bluetoothDeviceUnpairingResponse, "BluetoothDeviceUnpairingResponse"⟩,
  ⟨87, .unsubscribeBluetoothLeAdvertisementsRequest, "UnsubscribeBluetoothLeAdvertisementsRequest"⟩,
  ⟨88, .bluetoothDeviceClearCacheResponse, "BluetoothDeviceClearCacheResponse"⟩,
  ⟨89, .subscribeVoiceAssistantRequest, "SubscribeVoiceAssistantRequest"⟩,
  ⟨90, .voiceAssistantRequest, "VoiceAssistantRequest"⟩,
  ⟨91, .voiceAssistantResponse, "VoiceAssistantResponse"⟩,
  ⟨92, .voiceAssistantEventResponse, "VoiceAssistantEventResponse"⟩,
  ⟨93, .bluetoothLeRawAdvertisementsResponse, "BluetoothLeRawAdvertisementsResponse"⟩,
  ⟨94, .listEntitiesAlarmControlPanelResponse, "ListEntitiesAlarmControlPanelResponse"⟩,
  ⟨95, .alarmControlPanelStateResponse, "AlarmControlPanelStateResponse"⟩,
  ⟨96, .alarmControlPanelCommandRequest, "AlarmControlPanelCommandRequest"⟩,
  ⟨97, .listEntitiesTextResponse, "ListEntitiesTextResponse"⟩,
  ⟨98, .textStateResponse, "TextStateResponse"⟩,
  ⟨99, .textCommandRequest, "TextCommandRequest"⟩,
  ⟨100, .listEntitiesDateResponse, "ListEntitiesDateResponse"⟩,
  ⟨101, .dateStateResponse, "DateStateResponse"⟩,
  ⟨102, .dateCommandRequest, "DateCommandRequest"⟩,
  ⟨103, .listEntitiesTimeResponse, "ListEntitiesTimeResponse"⟩,
  ⟨104, .timeStateResponse, "TimeStateResponse"⟩,
  ⟨105, .timeCommandRequest, "TimeCommandRequest"⟩,
  ⟨106, .voiceAssistantAudio, "VoiceAssistantAudio"⟩,
  ⟨107, .listEntitiesEventResponse, "ListEntitiesEventResponse"⟩,
  ⟨108, .eventResponse, "EventResponse"⟩,
  ⟨109, .listEntitiesValveResponse, "ListEntitiesValveResponse"⟩,
  ⟨110, .valveStateResponse, "ValveStateResponse"⟩,
  ⟨111, .valveCommandRequest, "ValveCommandRequest"⟩,
  ⟨112, .listEntitiesDateTimeResponse, "ListEntitiesDateTimeResponse"⟩,
  ⟨113, .dateTimeStateResponse, "DateTimeStateResponse"⟩,
  ⟨114, .dateTimeCommandRequest, "DateTimeCommandRequest"⟩,
  ⟨115, .voiceAssistantTimerEventResponse, "VoiceAssistantTimerEventResponse"⟩,
  ⟨116, .listEntitiesUpdateResponse, "ListEntitiesUpdateResponse"⟩,
  ⟨117, .updateStateResponse, "UpdateStateResponse"⟩,
  ⟨118, .updateCommandRequest, "UpdateCommandRequest"⟩,
  ⟨119, .voiceAssistantAnnounceRequest, "VoiceAssistantAnnounceRequest"⟩,
  ⟨120, .voiceAssistantAnnounceFinished, "VoiceAssistantAnnounceFinished"⟩,
  ⟨121, .voiceAssistantConfigurationRequest, "VoiceAssistantConfigurationRequest"⟩,
  ⟨122, .voiceAssistantConfigurationResponse, "VoiceAssistantConfigurationResponse"⟩,
  ⟨123, .voiceAssistantSetConfiguration, "VoiceAssistantSetConfiguration"⟩]

def MessageKind.mapping (k : MessageKind) : Mapping :=
  (mappings.find? (fun row => row.kind = k)).getD ⟨0, k, ""⟩

structure HelloResponse where
  apiVersionMajor : ℕ
  apiVersionMinor : ℕ
  serverInfo : String
  name : String

structure DeviceInfoResponse (AreaInfo DeviceInfo : Type) where
  apiEncryptionSupported : Bool
  usesPassword : Bool
  name : String
  macAddress : String
  esphomeVersion : String
  compilationTime : String
  model : String
  hasDeepSleep : Bool
  projectName : String
  projectVersion : String
  webserverPort : ℕ
  legacyBluetoothProxyVersion : ℕ
  bluetoothProxyFeatureFlags : ℕ
  manufacturer : String
  friendlyName : String
  legacyVoiceAssistantVersion : ℕ
  voiceAssistantFeatureFlags : ℕ
  suggestedArea : String
  bluetoothMacAddress : String
  areas : List AreaInfo
  devices : List DeviceInfo
  area : Option AreaInfo
  zwaveProxyFeatureFlags : ℕ
  zwaveHomeId : ℕ

/-- The generated module `proto` with its `prost` codec, `prost`'s length delimiters, and
the capacity that a buffer of `bytes` grows to when it has to: none of them is in the
repository. The last fields are the struct literals the source builds and the one field
it reads. -/
structure Proto where
  Struct : MessageKind → Type
  AreaInfo : Type
  DeviceInfo : Type
  version : String
  encodeToVec : (k : MessageKind) → Struct k → Bytes
  decode : (k : MessageKind) → Bytes → Option (Struct k)
  encodeLengthDelimiter : ℕ → Option Bytes
  decodeLengthDelimiter : Bytes → Option ℕ
  growth : (capacity needed : ℕ) → ℕ
  password : Struct .authenticationRequest → String
  helloResponse : HelloResponse → Struct .helloResponse
  authenticationResponse : (invalidPassword : Bool) → Struct .authenticationResponse
  disconnectResponse : Struct .disconnectResponse
  pingResponse : Struct .pingResponse
  deviceInfoResponse : DeviceInfoResponse AreaInfo DeviceInfo → Struct .deviceInfoResponse
  listEntitiesDoneResponse : Struct .listEntitiesDoneResponse

structure ProtoMessage (P : Proto) where
  kind : MessageKind
  body : P.Struct kind

variable {P : Proto}

def parseProtoMessage (P : Proto) (messageType : ℕ) (buf : Bytes) : Except String (ProtoMessage P) :=
  match mappings.find? (fun row => row.typeId = messageType) with
  | some row =>
    match P.decode row.kind buf with
    | some body => .ok ⟨row.kind, body⟩
    | none => .error ("Failed to decode " ++ row.name)
  | none => .error ("Unknown message type: " ++ toString messageType)

def protoToVec (message : ProtoMessage P) : Except String Bytes :=
  .ok (P.encodeToVec message.kind message.body)

def messageToNum (messageType : ProtoMessage P) : Except String UInt8 :=
  .ok (UInt8.ofNat messageType.kind.mapping.typeId)

theorem mapping_kind (k : MessageKind) : k.mapping.kind = k := by
  cases k <;> rfl

theorem typeId_lt (k : MessageKind) : k.mapping.typeId < 256 := by
  cases k <;> decide

theorem find_typeId (k : MessageKind) :
    mappings.find? (fun row => row.typeId = k.mapping.typeId) = some k.mapping := by
  cases k <;> rfl

theorem mapping_of_mem (row : Mapping) (h : row ∈ mappings) : row.kind.mapping = row := by
  have table : mappings.map (fun row => row.kind.mapping) = mappings.map id := rfl
  exact List.map_inj_left.mp table row h

theorem find_mapping {t : ℕ} {row : Mapping}
    (h : mappings.find? (fun row => row.typeId = t) = some row) :
    row.kind.mapping = row ∧ row.typeId = t := by
  refine ⟨mapping_of_mem row (List.mem_of_find?_eq_some h), ?_⟩
  simpa using List.find?_some h

theorem parseProtoMessage_kind (k : MessageKind) (buf : Bytes) (body : P.Struct k)
    (h : P.decode k buf = some body) :
    parseProtoMessage P k.mapping.typeId buf = .ok ⟨k, body⟩ := by
  rw [parseProtoMessage, find_typeId]
  generalize hr : k.mapping = row
  have hk : row.kind = k := hr ▸ mapping_kind k
  subst hk
  simp [h]

/-- What the code relies on: `decode` undoes `encode_to_vec`, and the length delimiters
are base-128 varints. -/
structure Proto.Lawful (P : Proto) : Prop where
  decode_encode : ∀ k (body : P.Struct k), P.decode k (P.encodeToVec k body) = some body
  encode_delimiter : ∀ n, P.encodeLengthDelimiter n = some (Varint.encode n)
  decode_delimiter : ∀ bs, Varint.Terminated bs → bs.length ≤ 4 →
    P.decodeLengthDelimiter bs = some (Varint.value bs)

theorem parse_protoToVec (hP : P.Lawful) (message : ProtoMessage P) :
    parseProtoMessage P message.kind.mapping.typeId (P.encodeToVec message.kind message.body) =
      .ok message :=
  parseProtoMessage_kind _ _ _ (hP.decode_encode _ _)

theorem parseProtoMessage_ok {t : ℕ} {buf : Bytes} {message : ProtoMessage P}
    (h : parseProtoMessage P t buf = .ok message) :
    message.kind.mapping.typeId = t ∧ P.decode message.kind buf = some message.body := by
  unfold parseProtoMessage at h
  cases hf : mappings.find? (fun row => row.typeId = t) with
  | none => simp [hf] at h
  | some row =>
    obtain ⟨hr, ht⟩ := find_mapping hf
    cases hd : P.decode row.kind buf with
    | none => simp [hf, hd] at h
    | some body =>
      simp only [hf, hd, Except.ok.injEq] at h
      subst h
      exact ⟨by rw [hr, ht], hd⟩

theorem parseProtoMessage_ok_iff (t : ℕ) (buf : Bytes) (message : ProtoMessage P) :
    parseProtoMessage P t buf = .ok message ↔
      message.kind.mapping.typeId = t ∧ P.decode message.kind buf = some message.body := by
  constructor
  · exact parseProtoMessage_ok
  · rintro ⟨rfl, hd⟩
    exact parseProtoMessage_kind _ _ _ hd

def varintField (tag : UInt8) (n : ℕ) : Bytes := if n = 0 then [] else tag :: Varint.encode n

def stringField (tag : UInt8) (s : String) : Bytes :=
  if s.isEmpty then [] else tag :: (Varint.encode (asBytes s).length ++ asBytes s)

def wireProto : Proto where
  Struct _ := Bytes
  AreaInfo := Unit
  DeviceInfo := Unit
  version := "2025.12.6"
  encodeToVec _ body := body
  decode _ buf := some buf
  encodeLengthDelimiter n := some (Varint.encode n)
  decodeLengthDelimiter bs := some (Varint.value bs)
  growth capacity needed := max (2 * capacity) (max needed 8)
  password body := if body.isEmpty then "" else "password"
  helloResponse r := varintField 8 r.apiVersionMajor ++ varintField 16 r.apiVersionMinor ++
    stringField 26 r.serverInfo ++ stringField 34 r.name
  authenticationResponse invalid := varintField 8 invalid.toNat
  disconnectResponse := []
  pingResponse := []
  deviceInfoResponse r := varintField 8 r.usesPassword.toNat ++ stringField 18 r.name
  listEntitiesDoneResponse := []

theorem wireProto_lawful : wireProto.Lawful where
  decode_encode _ _ := rfl
  encode_delimiter _ := rfl
  decode_delimiter _ _ _ := rfl

end EsphomeNativeApi.MessageTable
