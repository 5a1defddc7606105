import EsphomeNativeApi.Histories
import EsphomeNativeApi.Handshake

/-!
Which clients `EspHomeApi::start` starts its loops for, what the loops of an encrypted
connection do, and how a client is refused.
-/

namespace EsphomeNativeApi.EncryptionEnforced

open RustSemantics MessageTable Frames FrameFormat FrameEncoding Framing PacketEncrypted Api Start
open Handshake Channels Runs ReadLoops WriteLoops ClientTraffic Connection ReadHistories WriteHistories
open Histories

variable {C : Crates}

/-- The handshake library accepted the client's request under the pre-shared key, and the
loops read what follows it. -/
def Accepted (C : Crates) (key : String) (stream : Bytes) (e : Established C) : Prop :=
  ∃ hello request st payload st', ClientHandshake stream hello request (e.src.data ++ e.incoming.flatten) ∧
    Readable C key request st ∧ C.noise.readMessageVec st (request.drop 1) = (.ok payload, st')

structure Enforced (s : Session) (e : Established C) (c : State C) : Prop where
  ciphers : c.writer.encryptCypher.isSome ∧ c.reader.decryptCypher.isSome
  opened : ∃ cipher cipher', e.decryptCypher = some cipher ∧
    openAll C.proto cipher (c.reader.handled.map Prod.fst) = .ok (messages c.reader, cipher')
  answered : ∀ answer ∈ acceptedFrom c .readLoop,
    ∃ message ∈ messages c.reader, s.api.dispatch message = .answer answer
  forwarded : ∀ message ∈ c.reader.outgoing.sent, message ∈ messages c.reader
  written : ∃ cipher answers packets cipher', e.encryptCypher = some cipher ∧ answers <+: taken c ∧
    sealAll cipher answers = .ok (packets, cipher') ∧ c.writer.wire <+: framesOf true packets
  preamble : ∀ ws frames b rest, b ≠ 1 → List.Forall₂ (IsFrame true) ws frames →
    e.src.data ++ e.incoming.flatten = ws.flatten ++ b :: rest → c.reader.handled.map Prod.fst <+: frames

theorem sealed_sealAll {cipher : CipherState C.aead} {k : Option (CipherState C.aead)}
    {answers : List (ProtoMessage C.proto)} {packets : List Bytes}
    (h : Sealed C true (some cipher) answers packets k) :
    ∃ cipher', k = some cipher' ∧ sealAll cipher answers = .ok (packets, cipher') := by
  induction h with
  | none => exact ⟨cipher, rfl, rfl⟩
  | snoc before last ih =>
    obtain ⟨cipher', rfl, ha⟩ := ih
    cases last with
    | encrypted key n _ short => exact ⟨_, rfl, sealAll_snoc ha _⟩

theorem writer_sealed {cipher : CipherState C.aead} {taken : List (ProtoMessage C.proto)} {w : WriteLoop C}
    (h : WriterHistory true (some cipher) taken w) :
    w.encryptCypher.isSome ∧ ∃ answers packets cipher', answers <+: taken ∧
      sealAll cipher answers = .ok (packets, cipher') ∧ w.wire <+: framesOf true packets := by
  have hall : ∃ answers packets, answers <+: taken ∧
      Sealed C true (some cipher) answers packets w.encryptCypher ∧ w.wire <+: framesOf true packets := by
    unfold WriterHistory at h
    split at h
    · exact ⟨_, _, List.prefix_refl _, h.2.choose_spec.1, h.2.choose_spec.2 ▸ List.prefix_refl _⟩
    · exact ⟨_, _, List.prefix_refl _, h.2.choose_spec.1, h.2.choose_spec.2 ▸ List.prefix_refl _⟩
    · obtain ⟨before, packets, packet, k', done, rfl, -, hsealed, hlast, hwire, hframe, -⟩ := h
      refine ⟨_, _, List.prefix_refl _, .snoc hsealed hlast, ?_⟩
      rw [framesOf_snoc, hwire, hframe, ← List.append_assoc]
      exact List.prefix_append _ _
    · exact ⟨_, _, List.prefix_refl _, h.2.choose_spec.1, h.2.choose_spec.2 ▸ List.prefix_refl _⟩
    · obtain ⟨written, refused, packets, rfl, -, -, hsealed, hwire⟩ := h
      exact ⟨written, packets, List.prefix_append _ _, hsealed, hwire ▸ List.prefix_refl _⟩
  obtain ⟨answers, packets, hprefix, hsealed, hwire⟩ := hall
  obtain ⟨cipher', hk, ha⟩ := sealed_sealAll hsealed
  exact ⟨by rw [hk]; rfl, answers, packets, cipher', hprefix, ha, hwire⟩

theorem frames_before_preamble {ws ws' frames frames' : List Bytes} {b : UInt8} {rest rest' : Bytes}
    (hb : b ≠ 1) (h : List.Forall₂ (IsFrame true) ws frames) (h' : List.Forall₂ (IsFrame true) ws' frames')
    (hs : ws.flatten ++ b :: rest = ws'.flatten ++ rest') : frames' <+: frames := by
  induction h generalizing ws' frames' with
  | nil =>
    cases h' with
    | nil => exact List.prefix_refl _
    | cons hw _ =>
      cases hw
      simp at hs
      exact absurd hs.1 hb
  | @cons w frame ws frames hw _ ih =>
    cases h' with
    | nil => exact List.nil_prefix
    | @cons w' frame' ws' frames' hw' hws' =>
      have h₁ := parse_isFrame hw (ws.flatten ++ b :: rest)
      have h₂ := parse_isFrame hw' (ws'.flatten ++ rest')
      rw [← List.append_assoc, ← List.flatten_cons] at h₁ h₂
      rw [hs, h₂] at h₁
      simp only [Verdict.frame.injEq] at h₁
      obtain ⟨rfl, hrest⟩ := h₁
      exact (List.prefix_cons_inj _).mpr (ih hws' hrest.symm)

theorem loops_enforced (hP : C.proto.Lawful) {s : Session} {e : Established C}
    (hs : s.encrypted = true) {encryptCipher decryptCipher : CipherState C.aead}
    (he : e.encryptCypher = some encryptCipher) (hd : e.decryptCypher = some decryptCipher)
    {actions : List (Action C.proto)} {c : State C}
    (h : run (State.step s) (initial e) actions = some c) : Enforced s e c := by
  have hhistory := history_run hP h
  have hwriter := hhistory.writer
  have hreader := hhistory.reader
  rw [hs, he] at hwriter
  obtain ⟨hsome, answers, packets, cipher', hprefix, ha, hwire⟩ := writer_sealed hwriter
  have hopened := hreader.opened
  rw [hs, hd] at hopened
  obtain ⟨last, hk, ho⟩ := openFrames_encrypted hopened
  refine ⟨⟨hsome, by rw [hk]; rfl⟩, ⟨decryptCipher, last, hd, ho⟩, ?_, ?_,
    ⟨encryptCipher, answers, packets, cipher', he, hprefix, ha, hwire⟩, ?_⟩
  · exact fun answer hm => mem_filterMap_answer ((owes_due hhistory.owes).subset hm)
  · exact fun message hm => mem_broadcastsDue (hreader.broadcast.1.subset hm)
  · intro ws frames b rest hb hws hstream
    obtain ⟨ws', rest', hws', hstream', -⟩ := hreader.framed
    rw [hs] at hws'
    exact frames_before_preamble hb hws hws' (hstream.symm.trans hstream')

theorem start_admits (hC : C.Lawful) {api : EspHomeApi} {chunks : List Bytes} {outcome : StartRun C}
    {e : Established C} (h : start C api chunks = .ok outcome) (he : outcome.result = .ok e) :
    chunks.flatten.head? = some 0 ∧ api.encryptionKey = none ∧ e.encrypted = false ∨
      chunks.flatten.head? = some 1 ∧ e.encrypted = true ∧ e.encryptCypher.isSome ∧ e.decryptCypher.isSome ∧
        ∃ key, api.encryptionKey = some key ∧ Accepted C key chunks.flatten e := by
  cases hs : chunks.flatten with
  | nil =>
    rw [start_empty hs] at h
    cases h
    cases he
  | cons preamble stream =>
    have hhead : chunks.flatten.head? = some preamble := by rw [hs]; rfl
    rw [start_of_head hhead] at h
    split_ifs at h with h0 hk h1
    · cases h
      cases he
    · cases h
      cases he
      exact .inl ⟨by rw [h0]; rfl, by simpa using hk, rfl⟩
    · cases hk : api.encryptionKey with
      | none =>
        rw [hk] at h
        cases h
        cases he
      | some key =>
        rw [hk] at h
        obtain ⟨hello, request, src, chunks', -, hc, hr⟩ := handshake_ok h
        obtain ⟨st, hst⟩ := readRequest_readable hC hr
        rcases (readRequest_cases hC hst).mp hr with ⟨st', -, rfl⟩ | ⟨payload, st', out, st'', ha, -, rfl⟩
        · cases he
        · cases he
          exact .inr ⟨by rw [h1]; rfl, rfl, rfl, rfl, key, rfl, hello, request, st, payload, st',
            hs ▸ hc, hst, ha⟩
    · cases h
      cases he

structure Refused (outcome : StartRun C) (packets : List Bytes) (message : String) : Prop where
  wire : outcome.wire = framesOf true (packets ++ [errorPacket message])
  framed : IsFrame true (frameOf true (errorPacket message)) (errorPacket message)
  status : (errorPacket message).head? = some 1
  once : errorPacket message ∉ packets
  shutdown : outcome.shutdown = true
  failed : ∃ error, outcome.result = .error error

theorem refusal_refused {packets : List Bytes} {message : String} (error : String)
    (hshort : (errorPacket message).length < 65536) (honce : errorPacket message ∉ packets) :
    Refused (refusal C (framesOf true packets) message error) packets message :=
  ⟨by rw [framesOf_snoc]; rfl, frameOf_encrypted _ hshort, rfl, honce, rfl, _, rfl⟩

theorem macFailure_ne_hello (name : String) (mac : Option String) :
    errorPacket errorHandshakeMacFailure ≠ generateServerHelloFrame name mac := by
  intro h
  have hlast := congrArg List.getLast? h
  unfold generateServerHelloFrame at hlast
  rw [List.getLast?_append] at hlast
  have hzero : (errorPacket errorHandshakeMacFailure).getLast? = some 0 := hlast
  revert hzero
  decide

theorem encryption_enforced (C : Crates) (hC : C.Lawful) (api : EspHomeApi) (chunks : List Bytes) :
    (∀ outcome e, start C api chunks = .ok outcome → outcome.result = .ok e →
      (chunks.flatten.head? = some 0 ∧ api.encryptionKey = none ∧ e.encrypted = false ∨
        chunks.flatten.head? = some 1 ∧ e.encrypted = true ∧
          ∃ key, api.encryptionKey = some key ∧ Accepted C key chunks.flatten e) ∧
      (e.encrypted = true → ∀ streamEnds debugEnabled actions c,
        run (State.step ⟨api, true, streamEnds, debugEnabled⟩) (initial e) actions = some c →
        Enforced ⟨api, true, streamEnds, debugEnabled⟩ e c)) ∧
    (chunks.flatten.head? = some 0 → api.encryptionKey.isSome = true →
      ∃ outcome, start C api chunks = .ok outcome ∧ Refused outcome [] errorOnlyEncrypted) ∧
    (chunks.flatten.head? = some 1 → api.encryptionKey = none →
      ∃ outcome, start C api chunks = .ok outcome ∧ Refused outcome [] noEncryptionAllowed) ∧
    (∀ key hello request rest st st', api.encryptionKey = some key →
      ClientHandshake chunks.flatten hello request rest → Readable C key request st →
      C.noise.readMessageVec st (request.drop 1) = (.error .decryption, st') →
      (∀ outcome, start C api chunks = .ok outcome →
        Refused outcome [generateServerHelloFrame api.name api.mac] errorHandshakeMacFailure) ∧
      (HelloFits api → ∃ outcome, start C api chunks = .ok outcome)) := by
  refine ⟨?_, ?_, ?_, ?_⟩
  · intro outcome e h he
    rcases start_admits hC h he with ⟨h0, hk, henc⟩ | ⟨h1, henc, hcipher, hdecipher, key, hk, ha⟩
    · exact ⟨.inl ⟨h0, hk, henc⟩, fun ht => by rw [henc] at ht; cases ht⟩
    · refine ⟨.inr ⟨h1, henc, key, hk, ha⟩, ?_⟩
      intro _ streamEnds debugEnabled actions c hrun
      obtain ⟨encryptCipher, hcipher⟩ := Option.isSome_iff_exists.mp hcipher
      obtain ⟨decryptCipher, hdecipher⟩ := Option.isSome_iff_exists.mp hdecipher
      exact loops_enforced hC.proto rfl hcipher hdecipher hrun
  · intro h0 hk
    refine ⟨_, by rw [start_of_head h0, if_pos rfl, if_pos hk], ?_⟩
    exact refusal_refused errorOnlyEncrypted (by decide) List.not_mem_nil
  · intro h1 hk
    refine ⟨_, by rw [start_of_head h1, if_neg (by decide), if_pos rfl, hk], ?_⟩
    exact refusal_refused noEncryptionKey (by decide) List.not_mem_nil
  · intro key hello request rest st st' hk hc hst hr
    have hhead : chunks.flatten.head? = some 1 := by
      obtain ⟨w₁, w₂, hw, -, hs⟩ := hc
      rw [hs]
      cases hw
      rfl
    have hstart : start C api chunks = handshake C api key chunks := by
      rw [start_of_head hhead, if_neg (by decide), if_pos rfl, hk]
    have hrefused : ∀ wire src incoming, readRequest C key wire request src incoming =
        .ok (refusal C wire errorHandshakeMacFailure errorHandshakeMacFailure) :=
      fun wire src incoming => (readRequest_cases hC hst).mpr (.inl ⟨st', hr, rfl⟩)
    rw [hstart]
    by_cases hfits : HelloFits api
    · obtain ⟨src, chunks', he, -⟩ := handshake_eq (C := C) api key chunks hello request rest hc hfits
      rw [hrefused] at he
      refine ⟨?_, fun _ => ⟨_, he⟩⟩
      intro outcome h
      rw [he] at h
      cases h
      have hwire : frameOf true (generateServerHelloFrame api.name api.mac) =
          framesOf true [generateServerHelloFrame api.name api.mac] := by simp [framesOf]
      rw [hwire]
      exact refusal_refused errorHandshakeMacFailure (by decide)
        (by simpa using macFailure_ne_hello api.name api.mac)
    · obtain ⟨p, hp⟩ := handshake_panics (C := C) api key chunks (.inr hfits)
      refine ⟨?_, fun hf => absurd hf hfits⟩
      intro outcome h
      rw [hp] at h
      cases h

def keyedApi : EspHomeApi := { name := "test-device", encryptionKey := some zeroKey }

def pingingClient : List Bytes :=
  [[1, 0, 0], [1, 0, 49] ++ List.replicate 49 0, [1, 0, 20, 0, 7, 0, 0] ++ List.replicate 16 0]

def pingAnswered : List (Action wireProto) :=
  [.read, .read, .read, .write 0, .write 0, .write 100]

set_option maxRecDepth 4000 in
theorem encryption_enforced_test_device :
    (∃ outcome, start tagCrates keyedApi [[0]] = .ok outcome ∧ Refused outcome [] errorOnlyEncrypted) ∧
    ∃ outcome e c, start tagCrates keyedApi pingingClient = .ok outcome ∧ outcome.result = .ok e ∧
      run (State.step ⟨keyedApi, true, false, false⟩) (initial e) pingAnswered = some c ∧
      acceptedFrom c .readLoop = [⟨.pingResponse, []⟩] ∧ Enforced ⟨keyedApi, true, false, false⟩ e c :=
  ⟨(encryption_enforced tagCrates tagCrates_lawful keyedApi [[0]]).2.1 rfl rfl,
    _, _, _, rfl, rfl, rfl, rfl,
    ((encryption_enforced tagCrates tagCrates_lawful keyedApi pingingClient).1 _ _ rfl rfl).2 rfl false false
      pingAnswered _ rfl⟩

end EsphomeNativeApi.EncryptionEnforced
