import EsphomeNativeApi.Histories
import EsphomeNativeApi.Handshake

/-!
`EspHomeServer`: the server around an `EspHomeApi` of its own, with the task that routes
what the inner connection receives to the application.
-/

namespace EsphomeNativeApi.Server

open RustSemantics MessageTable Api Start Handshake Channels Runs ReadLoops Connection Histories

structure BinarySensor where
  objectId : String
  deriving DecidableEq, Repr

inductive Entity where
  | binarySensor (sensor : BinarySensor)
  deriving DecidableEq, Repr

def insert {α β : Type} [DecidableEq α] (map : List (α × β)) (key : α) (value : β) : List (α × β) :=
  (key, value) :: map.filter fun entry => entry.1 ≠ key

structure EspHomeServer where
  componentsByKey : List (ℕ × Entity) := []
  componentsKeyId : List (String × ℕ) := []
  currentKey : ℕ := 0
  name : String
  password : Option String := none
  encryptionKey : Option String := none
  apiVersionMajor : ℕ := 1
  apiVersionMinor : ℕ := 10
  serverInfo : String := "Rust: esphome-native-api"
  friendlyName : Option String := none
  mac : Option String := none
  model : Option String := none
  manufacturer : Option String := none
  suggestedArea : Option String := none
  bluetoothMacAddress : Option String := none

namespace EspHomeServer

def addEntity (server : EspHomeServer) (entityId : String) (entity : Entity) : Rust EspHomeServer :=
  -- the key counter is a `u32`
  if server.currentKey + 1 < 2 ^ 32 then
    .ok { server with
      componentsKeyId := insert server.componentsKeyId entityId server.currentKey
      componentsByKey := insert server.componentsByKey server.currentKey entity
      currentKey := server.currentKey + 1 }
  else .error .overflow

/-- The `EspHomeApi` that `start` builds: most fields are commented out there. -/
def innerApi (server : EspHomeServer) : EspHomeApi where
  apiVersionMajor := server.apiVersionMajor
  apiVersionMinor := server.apiVersionMinor
  serverInfo := server.serverInfo
  name := server.name

def start (C : Crates) (server : EspHomeServer) (chunks : List Bytes) : Rust (StartRun C) :=
  Start.start C server.innerApi chunks

end EspHomeServer

structure ServerState (C : Crates) where
  connection : State C
  router : Except Panic Unit
  outgoing : Broadcast (ProtoMessage C.proto)
  receiverAlive : Bool

inductive ServerAction (P : Proto) where
  | connection (action : Action P)
  | route
  | receive
  | dropReceiver

variable {C : Crates}

def initial (e : Established C) : ServerState C := ⟨Connection.initial e, .ok (), .empty, true⟩

namespace ServerState

/-- One iteration of the routing task: the loop over the entities does nothing, and errors
are only logged. -/
def route (c : ServerState C) : Received (ProtoMessage C.proto) → ServerState C
  | .value ⟨.listEntitiesRequest, _⟩ =>
    if c.receiverAlive then
      { c with
        outgoing := c.outgoing.send ⟨.listEntitiesDoneResponse, C.proto.listEntitiesDoneResponse⟩ }
    else
      { c with
        router := .error .unwrapErr
        connection := { c.connection with receiverAlive := false } }
  | .value otherMessage =>
    if c.receiverAlive then { c with outgoing := c.outgoing.send otherMessage } else c
  | .lagged _ => c
  | .closed => c

def step (s : Session) (c : ServerState C) : ServerAction C.proto → Option (ServerState C)
  -- the inner connection's receiver belongs to the routing task
  | .connection .receive => none
  | .connection .dropReceiver => none
  | .connection action =>
    (c.connection.step s action).map fun connection => { c with connection := connection }
  | .route =>
    match c.router with
    | .ok () =>
      let reader := c.connection.reader
      (reader.outgoing.receive capacity (readerHoldsSender reader)).map fun received =>
        { c with
          connection := { c.connection with reader := { reader with outgoing := received.2 } } }.route
          received.1
    | .error _ => none
  | .receive =>
    if c.receiverAlive then
      (c.outgoing.receive capacity c.router.isOk).map fun received => { c with outgoing := received.2 }
    else none
  | .dropReceiver => some { c with receiverAlive := false }

end ServerState

def KeyEnforced (C : Crates) (server : EspHomeServer) (chunks : List Bytes) : Prop :=
  ∀ key, server.encryptionKey = some key →
    (chunks.flatten.head? = some 0 → ∀ outcome e, server.start C chunks = .ok outcome →
      outcome.result ≠ .ok e) ∧
    ∀ outcome e, server.start C chunks = .ok outcome → outcome.result = .ok e → e.encrypted = false →
      ∀ streamEnds debugEnabled actions c,
        run (ServerState.step ⟨server.innerApi, false, streamEnds, debugEnabled⟩) (initial e) actions = some c →
        acceptedFrom c.connection .readLoop = [] ∧ ∀ message, .value message ∉ c.outgoing.received

theorem start_plaintext_only {server : EspHomeServer} {chunks : List Bytes} {outcome : StartRun C}
    {e : Established C} (h : server.start C chunks = .ok outcome) (he : outcome.result = .ok e) :
    chunks.flatten.head? = some 0 := by
  cases hs : chunks.flatten with
  | nil =>
    rw [EspHomeServer.start, start_empty hs] at h
    cases h
    cases he
  | cons preamble stream =>
    have hhead : chunks.flatten.head? = some preamble := by rw [hs]; rfl
    rw [EspHomeServer.start, start_of_head hhead] at h
    split_ifs at h with h0 hk h1
    · cases h
      cases he
    · rw [h0]
      rfl
    · cases h
      cases he
    · cases h
      cases he

theorem start_plaintext {server : EspHomeServer} {chunks : List Bytes}
    (h : chunks.flatten.head? = some 0) :
    server.start C chunks = .ok ⟨[], false, .ok ⟨false, .empty, chunks, none, none⟩⟩ := by
  rw [EspHomeServer.start, start_of_head h, if_pos rfl]
  rfl

theorem server_key_enforced_iff (C : Crates) (server : EspHomeServer) (chunks : List Bytes) :
    KeyEnforced C server chunks ↔ server.encryptionKey = none ∨ chunks.flatten.head? ≠ some 0 := by
  constructor
  · intro h
    by_contra hnot
    rw [not_or, ne_eq, not_not] at hnot
    obtain ⟨key, hkey⟩ := Option.ne_none_iff_exists'.mp hnot.1
    exact (h key hkey).1 hnot.2 _ _ (start_plaintext hnot.2) rfl
  · rintro (hkey | hhead) key hsome
    · rw [hkey] at hsome
      cases hsome
    · exact ⟨fun h0 => absurd h0 hhead,
        fun outcome e h he => absurd (start_plaintext_only h he) hhead⟩

theorem plaintext_ping_starts :
    ¬ KeyEnforced tagCrates { name := "test-device", encryptionKey := some zeroKey } [[0, 0, 7]] := by
  intro h
  exact (h zeroKey rfl).1 rfl _ _ (start_plaintext rfl) rfl

end EsphomeNativeApi.Server
