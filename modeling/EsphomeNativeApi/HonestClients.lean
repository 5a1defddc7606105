import EsphomeNativeApi.StartOutcomes
import EsphomeNativeApi.Liveness
import EsphomeNativeApi.Peers

/-!
A client that holds the key: the handshake succeeds, and each side reads what the other
side writes.
-/

namespace EsphomeNativeApi.HonestClients

open Filter RustSemantics MessageTable Frames FrameFormat FrameEncoding Framing PacketEncrypted Api Start
open Handshake Channels Runs FairSchedules ReadLoops WriteLoops ClientTraffic Connection ReadHistories WriteHistories
open Histories OutboundOrder Applications Safety CrashFreedom EncryptionEnforced StreamMessages Transcript Peers
open StartOutcomes Liveness

/-- The end of the handshake that writes the first message. -/
structure Initiator (A : Aead) where
  HandshakeState : Type
  new : Bytes → HandshakeState
  writeMessageVec : HandshakeState → Bytes × HandshakeState
  readMessageVec : HandshakeState → Bytes → Option HandshakeState
  getCiphers : HandshakeState → CipherState A × CipherState A

def Initiator.request {A : Aead} (I : Initiator A) (psk : Bytes) : Bytes := (I.writeMessageVec (I.new psk)).1

def Initiator.reads {A : Aead} (I : Initiator A) (psk reply : Bytes) : Option I.HandshakeState :=
  I.readMessageVec (I.writeMessageVec (I.new psk)).2 reply

/-- Two ends with the same key come out of the handshake with the same cipher states. -/
def Initiator.Agrees {A : Aead} (I : Initiator A) (N : Noise A) : Prop :=
  ∀ psk st, N.pushPsk N.new psk = .ok st → ∃ payload st' reply st'' i,
    N.readMessageVec st (I.request psk) = (.ok payload, st') ∧
    N.writeMessageVec st' [] = .ok (.ok reply, st'') ∧
    I.reads psk reply = some i ∧ I.getCiphers i = N.getCiphers st''

variable {C : Crates}

section Setup

variable {I : Initiator C.aead} {api : EspHomeApi} {key : String} {psk hello rest : Bytes} {marker : UInt8}
  {chunks : List Bytes}

theorem agrees_long (hC : C.Lawful) (hI : I.Agrees C.noise) (hlength : psk.length = 32) :
    C.noise.overhead ≤ (I.request psk).length := by
  obtain ⟨st, hst⟩ := (hC.noise.push_psk psk).mpr hlength
  obtain ⟨payload, st', -, -, -, hread, -⟩ := hI psk st hst
  by_contra hshort
  rw [hC.noise.read_short st _ (not_le.mp hshort)] at hread
  cases hread

theorem establishes (hC : C.Lawful) (hI : I.Agrees C.noise) (hkey : api.encryptionKey = some key)
    (hdecode : C.base64Decode key = some psk) (hlength : psk.length = 32) (hgreeting : GreetingFits C api)
    (hclient : ClientHandshake chunks.flatten hello (marker :: I.request psk) rest) :
    ∃ reply i src incoming, start C api chunks = .ok
        ⟨framesOf true [generateServerHelloFrame api.name api.mac, [0] ++ reply], false,
          .ok ⟨true, src, incoming, some (I.getCiphers i).2, some (I.getCiphers i).1⟩⟩ ∧
      Greets C api true [generateServerHelloFrame api.name api.mac, [0] ++ reply] ∧
      I.reads psk reply = some i ∧ src.data ++ incoming.flatten = rest := by
  obtain ⟨st, hst⟩ := (hC.noise.push_psk psk).mpr hlength
  obtain ⟨payload, st', reply, st'', i, hread, hwrite, hreads, hciphers⟩ := hI psk st hst
  have hreadable : Readable C key (marker :: I.request psk) st := by
    refine ⟨⟨psk, hdecode, hst⟩, ?_⟩
    rw [List.length_cons, Nat.add_comm]
    exact Nat.succ_le_succ (agrees_long hC hI hlength)
  have hasks : Asks C api chunks.flatten rest (marker :: I.request psk) st :=
    ⟨⟨key, hkey, hreadable⟩, ⟨hello, hclient⟩, hgreeting.hello.le.trans (by decide)⟩
  obtain ⟨key, src, incoming, hreadable, hrest, hstart⟩ := start_asks hasks
  refine ⟨reply, i, src, incoming, ?_, ⟨st', reply, st'', hwrite, rfl⟩, hreads, hrest⟩
  rw [hstart, hciphers]
  apply (readRequest_cases hC hreadable).mpr
  refine .inr ⟨payload, st', reply, st'', hread, hwrite, ?_⟩
  simp [acceptance, framesOf]

end Setup

section Client

variable {encrypted : Bool} {k k' : Option (CipherState C.aead)} {messages : List (ProtoMessage C.proto)}
  {packets : List Bytes}

theorem traffic_of_frames {ws : List Bytes} (hws : List.Forall₂ (IsFrame encrypted) ws packets)
    (ho : openFrames C encrypted k packets = .ok (messages, k')) : Traffic C encrypted k ws.flatten messages := by
  induction hws generalizing k messages with
  | nil =>
    cases ho
    exact .done _
  | cons hw hws ih =>
    obtain ⟨⟨message, k₁⟩, hm, ho⟩ := (bind_ok_iff _ _ _).mp ho
    obtain ⟨⟨more, k₂⟩, hmore, ho⟩ := (bind_ok_iff _ _ _).mp ho
    cases ho
    rw [List.flatten_cons]
    exact .message hw ((openFrame_ok_iff _ _ _ _ _).mp hm) (ih hmore)

theorem sealed_traffic (hC : C.Lawful) (h : Sealed C encrypted k messages packets k')
    (hfits : ∀ message ∈ messages, Fits C encrypted message) :
    Traffic C encrypted k (framesOf encrypted packets) messages := by
  apply traffic_of_frames ?_ (sealed_opens hC h)
  apply (sealed_frames hC.aead h hfits).imp
  intro w packet hencoding
  have hparses := hencoding []
  rw [List.append_nil] at hparses
  obtain ⟨w', hw', rfl⟩ := isFrame_of_parse hparses
  rw [List.append_nil]
  exact hw'

theorem fits_encodable {message : ProtoMessage C.proto} (h : Fits C true message) : Encodable C true message := by
  have hcontent := h rfl _ rfl
  change (contentOf message).length + 16 ≤ 8 * 1024 * 1024
  rw [contentOf_length]
  omega

theorem onWire_carried (hC : C.Lawful) {wire : Bytes} (h : OnWire C encrypted k wire messages)
    (hfits : ∀ message ∈ messages, Fits C encrypted message) : messages <+: carried C encrypted k wire := by
  obtain ⟨packets, k', hsealed, rest, rfl⟩ := h
  have hall := traffic_carried (sealed_traffic hC hsealed hfits)
  have hfirst : carried C encrypted k (framesOf encrypted packets) <+:
      carried C encrypted k (framesOf encrypted packets ++ rest) := carried_prefix k _ rest
  rw [hall] at hfirst
  exact hfirst

end Client

/-- Requests that do not end the connection, and messages that fit into their packets. -/
structure Conversation (C : Crates) (api : EspHomeApi) (requests : List (ProtoMessage C.proto))
    (a : Application C.proto) : Prop where
  asks : ∀ request ∈ requests, Fits C true request ∧ isDisconnectRequest request = false
  answers : ∀ request ∈ requests, ∀ response, api.dispatch request = .answer response → Fits C true response
  sends : ∀ message, a.sends message → Fits C true message ∧ isDisconnectResponse message = false
  receiver : a.dropsReceiver = true → ∀ request ∈ requests, ∀ message, api.dispatch request ≠ .forward message

section Conversation

variable {s : Session} {e : Established C} {a : Application C.proto} {requests : List (ProtoMessage C.proto)}
  {actions : List (Action C.proto)} {c : State C}

theorem conversation_harmless (hs : s.encrypted = true) (hend : s.streamEnds = false)
    (h : Conversation C s.api requests a) : Harmless s a requests where
  after_disconnect := by
    apply List.pairwise_of_forall_mem_list
    intro request hm _ _ hd
    rw [(h.asks request hm).2] at hd
    cases hd
  disconnects response hsends hd := by
    rw [(h.sends response hsends).2] at hd
    cases hd
  sends_encodable message hsends := by
    rw [hs]
    exact fits_encodable (h.sends message hsends).1
  answers_encodable request hm response hanswer := by
    rw [hs]
    exact fits_encodable (h.answers request hm response hanswer)
  receiver hdrops request hm hforwarded := by
    obtain ⟨message, hforwarded⟩ := hforwarded
    exact h.receiver hdrops request hm message hforwarded
  sender _ hends := by
    rw [hend] at hends
    cases hends

theorem accepted_fits (h : Conversation C s.api requests a) (hsafe : Safe s a requests c)
    (hhistory : History s e actions c) : ∀ entry ∈ c.answers.accepted, Fits C true entry.2 := by
  rintro ⟨producer, message⟩ hm
  cases producer with
  | readLoop =>
    have hdue := (owes_due hhistory.owes).subset (mem_acceptedFrom hm)
    obtain ⟨request, hrequest, hanswer⟩ := mem_filterMap_answer hdue
    exact h.answers request (handled_received hsafe.reader hrequest) message hanswer
  | application task => exact (h.sends message (hsafe.sends task message hm)).1

theorem client_reads (hC : C.Lawful) (hs : s.encrypted = true) (h : Conversation C s.api requests a)
    (hsafe : Safe s a requests c) (hhistory : History s e actions c) {written : List (ProtoMessage C.proto)}
    (hfits : ∀ message ∈ written, Fits C true message)
    (hwire : OnWire C s.encrypted e.encryptCypher c.writer.wire written) :
    ∃ decoded left, Reads C s.encrypted e.encryptCypher c.writer.wire decoded left ∧ written <+: decoded := by
  have htaken : ∀ message ∈ taken c, Fits C s.encrypted message := by
    intro message hm
    obtain ⟨entry, hentry, rfl⟩ := List.mem_map.mp hm
    rw [hs]
    exact accepted_fits h hsafe hhistory entry (c.answers.taken_accepted.subset hentry)
  obtain ⟨decoded, inFlight, left, hreads, -⟩ := writer_reads hC hhistory.writer htaken
  refine ⟨decoded, left, hreads, ?_⟩
  rw [← carried_of_reads hC.proto hreads]
  apply onWire_carried hC hwire
  rw [hs]
  exact hfits

theorem conversation_serves (hC : C.Lawful) (hs : s.encrypted = true) (hend : s.streamEnds = false)
    (hk : e.encryptCypher.isSome) (h : Conversation C s.api requests a)
    (ht : Traffic C s.encrypted e.decryptCypher (e.src.data ++ e.incoming.flatten) requests)
    {S : Schedule (State.step (C := C) s)} (h0 : S.state 0 = initial e)
    (hallowed : ∀ n action, S.action n = some action → a.Allows action) (hfair : Fair S) :
    (∀ᶠ n in atTop, messages (S.state n).reader = requests ∧
      acceptedFrom (S.state n) .readLoop = requests.filterMap (fun request => (s.api.dispatch request).answer?) ∧
      (S.state n).reader.outgoing.sent = requests.filterMap fun request => (s.api.dispatch request).forward?) ∧
    ∀ n, ∀ᶠ m in atTop, ∃ decoded left,
      Reads C s.encrypted e.encryptCypher (S.state m).writer.wire decoded left ∧
      (S.state n).answers.accepted.map Prod.snd <+: decoded := by
  have hh := conversation_harmless hs hend h
  have hsafe : ∀ n, Safe s a requests (S.state n) ∧ ∃ actions, History s e actions (S.state n) :=
    fun n => safe_run hC (fun _ => hk) ht hh (schedule_reached h0 hallowed n)
  have hkeeps : ∀ n, readerHoldsSender (S.state n).reader = true ∧ (S.state n).writer.running = true := by
    intro n
    obtain ⟨hsafe, actions, hhistory⟩ := hsafe n
    exact keeps_running hsafe hhistory hend (fun request hm => (h.asks request hm).2)
      fun message hm => (h.sends message hm).2
  obtain ⟨hsettled, hwritten⟩ := serves hC h0 hfair (fun n => (hkeeps n).1) fun n => (hkeeps n).2
  constructor
  · apply hsettled.mono
    rintro n ⟨hmessages, hanswers, hbroadcasts⟩
    rw [answersDue, hmessages, traffic_carried ht] at hanswers
    rw [broadcastsDue, hmessages, traffic_carried ht] at hbroadcasts
    exact ⟨hmessages.trans (traffic_carried ht), hanswers, hbroadcasts⟩
  · intro n
    apply (hwritten n).mono
    intro m hwire
    obtain ⟨hsafe', actions, hhistory⟩ := hsafe m
    apply client_reads hC hs h hsafe' hhistory ?_ hwire
    intro message hm
    obtain ⟨entry, hentry, rfl⟩ := List.mem_map.mp hm
    obtain ⟨hsafe, actions, hhistory⟩ := hsafe n
    exact accepted_fits h hsafe hhistory entry hentry

end Conversation

/-- Whatever the chunks, and in every schedule in which both loops get their turns. -/
theorem honest_session (C : Crates) (hC : C.Lawful) (I : Initiator C.aead) (hI : I.Agrees C.noise)
    (api : EspHomeApi) (key : String) (hkey : api.encryptionKey = some key) (psk : Bytes)
    (hdecode : C.base64Decode key = some psk) (hlength : psk.length = 32) (hgreeting : GreetingFits C api)
    (chunks : List Bytes) (hello : Bytes) (marker : UInt8) (rest : Bytes)
    (hclient : ClientHandshake chunks.flatten hello (marker :: I.request psk) rest) :
    ∃ outcome e reply i, start C api chunks = .ok outcome ∧ outcome.result = .ok e ∧
      (∀ cut : List Bytes, cut.flatten = outcome.wire →
        ∃ left, (FrameCodec.new true).deliver C.proto .empty cut =
          .ok ([generateServerHelloFrame api.name api.mac, [0] ++ reply], none, left) ∧ left.data = []) ∧
      I.reads psk reply = some i ∧
      ∀ requests packets k a, Sealed C true (some (I.getCiphers i).1) requests packets k →
        rest = framesOf true packets → Conversation C api requests a →
        ∀ (debugEnabled : Bool) (S : Schedule (State.step (C := C) ⟨api, e.encrypted, false, debugEnabled⟩)),
          S.state 0 = initial e → (∀ n action, S.action n = some action → a.Allows action) → Fair S →
          (∀ᶠ n in atTop, messages (S.state n).reader = requests ∧
            acceptedFrom (S.state n) .readLoop = requests.filterMap (fun request => (api.dispatch request).answer?) ∧
            (S.state n).reader.outgoing.sent = requests.filterMap fun request => (api.dispatch request).forward?) ∧
          ∀ n, ∀ᶠ m in atTop, ∃ decoded left,
            Reads C true (some (I.getCiphers i).2) (S.state m).writer.wire decoded left ∧
            (S.state n).answers.accepted.map Prod.snd <+: decoded := by
  obtain ⟨reply, i, src, incoming, hstart, hgreets, hreads, hrest⟩ :=
    establishes hC hI hkey hdecode hlength hgreeting hclient
  have hgreeted := drain_exact _ _ _ (greeting_frames hgreeting hgreets)
  refine ⟨_, _, reply, i, hstart, rfl, deliver_of_drain hC.proto hgreeted, hreads, ?_⟩
  intro requests packets k a hsealed hframes hconversation debugEnabled S h0 hallowed hfair
  have ht : Traffic C true (some (I.getCiphers i).1) (src.data ++ incoming.flatten) requests := by
    rw [hrest, hframes]
    exact sealed_traffic hC hsealed fun request hm => (hconversation.asks request hm).1
  exact conversation_serves (s := ⟨api, true, false, debugEnabled⟩) hC rfl rfl rfl hconversation ht h0 hallowed hfair

/-- The other end of `tagNoise`. -/
def tagInitiator : Initiator tagAead where
  HandshakeState := Unit
  new _ := ()
  writeMessageVec _ := (List.replicate 48 0, ())
  readMessageVec _ reply := if reply.length = 48 then some () else none
  getCiphers _ := (⟨(), 0⟩, ⟨(), 0⟩)

theorem tagInitiator_agrees : tagInitiator.Agrees tagNoise := by
  intro psk st h
  simp only [tagNoise] at h
  split_ifs at h
  cases h
  exact ⟨[], true, List.replicate 48 0, false, (), rfl, rfl, rfl, rfl⟩

def askingClient : List Bytes :=
  [[1, 0, 0, 1, 0, 49], List.replicate 49 0 ++ [1, 0, 20], [0, 7, 0, 0] ++ List.replicate 16 0]

set_option maxRecDepth 4000 in
theorem askingClient_idles :
    ∃ outcome e c, start tagCrates keyedApi askingClient = .ok outcome ∧ outcome.result = .ok e ∧
      run (State.step ⟨keyedApi, e.encrypted, false, false⟩) (initial e)
        [.read, .read, .read, .write 1, .write 1, .write 100] = some c ∧
      isIdle ⟨keyedApi, e.encrypted, false, false⟩ c = true := by
  refine ⟨_, _, _, rfl, rfl, rfl, ?_⟩
  decide +kernel

theorem asking_sealed : Sealed tagCrates true (some ⟨(), 0⟩) [⟨.pingRequest, []⟩]
    [[0, 7, 0, 0] ++ List.replicate 16 0] (some ⟨(), 1⟩) := by
  have hshort : (tagAead.encrypt () 0 (contentOf (P := wireProto) ⟨.pingRequest, []⟩)).length ≤
      (FrameCodec.new true).maxLength := by decide +kernel
  have hseals := Seals.encrypted (C := tagCrates) () 0 ⟨.pingRequest, []⟩ hshort
  exact .snoc .none hseals

theorem honest_session_ping :
    ∃ outcome e, ∃ S : Schedule (State.step (C := tagCrates) ⟨keyedApi, e.encrypted, false, false⟩),
      start tagCrates keyedApi askingClient = .ok outcome ∧ outcome.result = .ok e ∧ S.state 0 = initial e ∧
      Fair S ∧ ∀ᶠ n in atTop, acceptedFrom (S.state n) .readLoop = [⟨.pingResponse, []⟩] := by
  have hclient : ClientHandshake askingClient.flatten [] (0 :: tagInitiator.request (List.replicate 32 0))
      (framesOf true [[0, 7, 0, 0] ++ List.replicate 16 0]) :=
    ⟨_, _, .encrypted 0 0 [] rfl, .encrypted 0 49 (List.replicate 49 0) rfl, rfl⟩
  obtain ⟨outcome, e, reply, i, hstart, he, -, -, hserves⟩ := honest_session tagCrates tagCrates_lawful
    tagInitiator tagInitiator_agrees keyedApi zeroKey rfl (List.replicate 32 0) rfl rfl keyedApi_greeting
    askingClient [] 0 _ hclient
  obtain ⟨outcome', e', c, hstart', he', hrun, hidle⟩ := askingClient_idles
  obtain rfl : outcome = outcome' := Except.ok.inj (hstart.symm.trans hstart')
  obtain rfl : e = e' := Except.ok.inj (he.symm.trans he')
  obtain ⟨T, rfl, hfair, hactions⟩ := idles hidle
  obtain ⟨S, h0, hends, hfrom⟩ := T.exists_prepend hrun
  have hfair : Fair S := ⟨hends.stronglyFair hfair.reads, hends.weaklyFair hfair.writes⟩
  have hconversation : Conversation tagCrates keyedApi [⟨.pingRequest, []⟩] ⟨fun _ => False, false, false⟩ := by
    refine ⟨?_, ?_, fun _ hsends => hsends.elim, by simp⟩
    · exact List.forall_mem_cons.mpr ⟨⟨emptyMessage_fits _, rfl⟩, List.forall_mem_nil _⟩
    · refine List.forall_mem_cons.mpr ⟨?_, List.forall_mem_nil _⟩
      rintro response ⟨⟩
      exact emptyMessage_fits .pingResponse
  refine ⟨outcome, e, S, hstart, he, h0, hfair, ?_⟩
  refine (hserves _ _ _ _ asking_sealed rfl hconversation false S h0 ?_ hfair).1.mono fun n hn => hn.2.1
  intro n action haction
  rcases hfrom n action haction with hm | ⟨m, hm⟩
  · simp only [List.mem_cons, List.not_mem_nil, or_false] at hm
    rcases hm with rfl | rfl | rfl | rfl | rfl | rfl <;> trivial
  · rw [hactions m action hm]
    trivial

end EsphomeNativeApi.HonestClients
