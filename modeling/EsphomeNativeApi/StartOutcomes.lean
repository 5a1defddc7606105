import EsphomeNativeApi.EncryptionEnforced

/-!
All that `start` can come to, as a relation on the client's bytes alone: what the client is
told, whether the socket is shut down, and what connection there is.
-/

namespace EsphomeNativeApi.StartOutcomes

open RustSemantics MessageTable Frames FrameFormat FrameEncoding PacketEncrypted Api Start Handshake
open WriteHistories EncryptionEnforced

variable {C : Crates}

/-- A connection, with the bytes of the client that are still to be read. -/
structure Link (A : Aead) where
  encrypted : Bool
  unread : Bytes
  encryptCypher : Option (CipherState A)
  decryptCypher : Option (CipherState A)

def Established.link (e : Established C) : Link C.aead :=
  ⟨e.encrypted, e.src.data ++ e.incoming.flatten, e.encryptCypher, e.decryptCypher⟩

/-- The client's handshake with the key that is configured. -/
structure Asks (C : Crates) (api : EspHomeApi) (stream rest request : Bytes) (st : C.noise.HandshakeState) : Prop where
  key : ∃ key, api.encryptionKey = some key ∧ Readable C key request st
  frames : ∃ hello, ClientHandshake stream hello request rest
  greets : HelloFits api

inductive Outcome (C : Crates) (api : EspHomeApi) (stream : Bytes) :
    List Bytes → Bool → Except String (Link C.aead) → Prop where
  | noData (empty : stream = []) : Outcome C api stream [] false (.error "No data")
  | invalidMarker (marker : UInt8) (head : stream.head? = some marker) (other : marker ≠ 0 ∧ marker ≠ 1) :
      Outcome C api stream [] false (.error ("Invalid marker byte " ++ toString marker.toNat))
  | plaintext (head : stream.head? = some 0) (keyless : api.encryptionKey = none) :
      Outcome C api stream [] false (.ok ⟨false, stream, none, none⟩)
  | onlyEncrypted (head : stream.head? = some 0) (keyed : api.encryptionKey.isSome = true) :
      Outcome C api stream [errorPacket errorOnlyEncrypted] true (.error errorOnlyEncrypted)
  | noKey (head : stream.head? = some 1) (keyless : api.encryptionKey = none) :
      Outcome C api stream [errorPacket noEncryptionAllowed] true (.error noEncryptionKey)
  | macFailure (rest request : Bytes) (st st' : C.noise.HandshakeState) (asks : Asks C api stream rest request st)
      (forged : C.noise.readMessageVec st (request.drop 1) = (.error .decryption, st')) :
      Outcome C api stream [generateServerHelloFrame api.name api.mac, errorPacket errorHandshakeMacFailure] true
        (.error errorHandshakeMacFailure)
  | accepted (rest request payload out : Bytes) (st st' st'' : C.noise.HandshakeState)
      (asks : Asks C api stream rest request st)
      (reads : C.noise.readMessageVec st (request.drop 1) = (.ok payload, st'))
      (writes : C.noise.writeMessageVec st' [] = .ok (.ok out, st'')) :
      Outcome C api stream [generateServerHelloFrame api.name api.mac, [0] ++ out] false
        (.ok ⟨true, rest, some (C.noise.getCiphers st'').2, some (C.noise.getCiphers st'').1⟩)

/-- What the client and the application see of a run of `start`. -/
def Shows (outcome : StartRun C) (wire : Bytes) (shutdown : Bool) (result : Except String (Link C.aead)) : Prop :=
  outcome.wire = wire ∧ outcome.shutdown = shutdown ∧ outcome.result.map Established.link = result

section Outcomes

variable {api : EspHomeApi} {chunks : List Bytes} {outcome : StartRun C} {packets : List Bytes} {shutdown : Bool}
  {result : Except String (Link C.aead)}

theorem handshake_outcome (hC : C.Lawful) {key : String} (hkey : api.encryptionKey = some key)
    (h : handshake C api key chunks = .ok outcome) :
    ∃ packets shutdown result, Outcome C api chunks.flatten packets shutdown result ∧
      Shows outcome (framesOf true packets) shutdown result := by
  obtain ⟨hello, request, src, chunks', hfits, hclient, hread⟩ := handshake_ok h
  obtain ⟨st, hst⟩ := readRequest_readable hC hread
  have hasks : Asks C api chunks.flatten (src.data ++ chunks'.flatten) request st :=
    ⟨⟨key, hkey, hst⟩, ⟨hello, hclient⟩, hfits⟩
  rcases (readRequest_cases hC hst).mp hread with ⟨st', hr, rfl⟩ | ⟨payload, st', out, st'', hr, hw, rfl⟩
  · refine ⟨_, _, _, .macFailure _ _ _ _ hasks hr, ?_, rfl, rfl⟩
    simp [refusal, framesOf]
  · refine ⟨_, _, _, .accepted _ _ _ _ _ _ _ hasks hr hw, ?_, rfl, rfl⟩
    simp [acceptance, framesOf]

theorem start_outcome (hC : C.Lawful) (h : start C api chunks = .ok outcome) :
    ∃ packets shutdown result, Outcome C api chunks.flatten packets shutdown result ∧
      Shows outcome (framesOf true packets) shutdown result := by
  cases hs : chunks.flatten with
  | nil =>
    rw [start_empty hs] at h
    cases h
    exact ⟨_, _, _, .noData rfl, rfl, rfl, rfl⟩
  | cons preamble stream =>
    have hhead : chunks.flatten.head? = some preamble := by rw [hs]; rfl
    rw [start_of_head hhead] at h
    rw [← hs]
    split_ifs at h with h0 hk h1
    · cases h
      refine ⟨_, _, _, .onlyEncrypted (h0 ▸ hhead) hk, ?_, rfl, rfl⟩
      simp [refusal, framesOf]
    · cases h
      exact ⟨_, _, _, .plaintext (h0 ▸ hhead) (by simpa using hk), rfl, rfl, rfl⟩
    · cases hkey : api.encryptionKey with
      | none =>
        rw [hkey] at h
        cases h
        refine ⟨_, _, _, .noKey (h1 ▸ hhead) hkey, ?_, rfl, rfl⟩
        simp [refusal, framesOf]
      | some key =>
        rw [hkey] at h
        exact handshake_outcome hC hkey h
    · cases h
      exact ⟨_, _, _, .invalidMarker preamble hhead ⟨h0, h1⟩, rfl, rfl, rfl⟩

theorem handshake_head {stream hello request rest : Bytes} (h : ClientHandshake stream hello request rest) :
    stream.head? = some 1 := by
  obtain ⟨w₁, w₂, hw₁, -, rfl⟩ := h
  cases hw₁ with
  | encrypted hi lo data length => rfl

theorem start_asks {rest request : Bytes} {st : C.noise.HandshakeState}
    (h : Asks C api chunks.flatten rest request st) :
    ∃ key src incoming, Readable C key request st ∧ src.data ++ incoming.flatten = rest ∧ start C api chunks =
      readRequest C key (frameOf true (generateServerHelloFrame api.name api.mac)) request src incoming := by
  obtain ⟨⟨key, hkey, hst⟩, ⟨hello, hclient⟩, hfits⟩ := h
  obtain ⟨src, incoming, hrequest, hrest⟩ := handshake_eq (C := C) api key chunks _ _ _ hclient hfits
  refine ⟨key, src, incoming, hst, hrest, ?_⟩
  rw [start_of_head (handshake_head hclient), if_neg (by decide), if_pos rfl, hkey]
  exact hrequest

theorem outcome_start (hC : C.Lawful) (h : Outcome C api chunks.flatten packets shutdown result) :
    ∃ outcome, start C api chunks = .ok outcome ∧ Shows outcome (framesOf true packets) shutdown result := by
  cases h with
  | noData empty => exact ⟨_, start_empty empty, rfl, rfl, rfl⟩
  | invalidMarker marker head other =>
    refine ⟨_, by rw [start_of_head head, if_neg other.1, if_neg other.2], rfl, rfl, rfl⟩
  | plaintext head keyless =>
    refine ⟨_, by rw [start_of_head head, if_pos rfl, keyless]; rfl, rfl, rfl, ?_⟩
    rfl
  | onlyEncrypted head keyed =>
    refine ⟨_, by rw [start_of_head head, if_pos rfl, if_pos keyed], ?_, rfl, rfl⟩
    simp [refusal, framesOf]
  | noKey head keyless =>
    refine ⟨_, by rw [start_of_head head, if_neg (by decide), if_pos rfl, keyless], ?_, rfl, rfl⟩
    simp [refusal, framesOf]
  | macFailure rest request st st' asks forged =>
    obtain ⟨key, src, incoming, hst, -, hstart⟩ := start_asks asks
    refine ⟨_, hstart.trans ((readRequest_cases hC hst).mpr (.inl ⟨st', forged, rfl⟩)), ?_, rfl, rfl⟩
    simp [refusal, framesOf]
  | accepted rest request payload out st st' st'' asks reads writes =>
    obtain ⟨key, src, incoming, hst, rfl, hstart⟩ := start_asks asks
    refine ⟨_, hstart.trans ((readRequest_cases hC hst).mpr (.inr ⟨payload, st', out, st'', reads, writes, rfl⟩)), ?_,
      rfl, rfl⟩
    simp [acceptance, framesOf]

end Outcomes

/-- Without a panic `start` comes to exactly the outcomes of the relation, however the bytes arrive. -/
theorem start_shows_iff (hC : C.Lawful) (api : EspHomeApi) (chunks : List Bytes) (wire : Bytes) (shutdown : Bool)
    (result : Except String (Link C.aead)) :
    (∃ outcome, start C api chunks = .ok outcome ∧ Shows outcome wire shutdown result) ↔
      ∃ packets, wire = framesOf true packets ∧ Outcome C api chunks.flatten packets shutdown result := by
  constructor
  · rintro ⟨outcome, hstart, rfl, rfl, rfl⟩
    obtain ⟨packets, shutdown, result, houtcome, hwire, hshutdown, hresult⟩ := start_outcome hC hstart
    subst hshutdown hresult
    exact ⟨packets, hwire, houtcome⟩
  · rintro ⟨packets, rfl, houtcome⟩
    exact outcome_start hC houtcome

set_option maxRecDepth 4000 in
theorem start_shows_keyed :
    (∃ outcome, start tagCrates keyedApi [[], [0], [0, 7]] = .ok outcome ∧
      Shows outcome (framesOf true [errorPacket errorOnlyEncrypted]) true (.error errorOnlyEncrypted)) ∧
    ∃ wire link packets, wire = framesOf true packets ∧
      Outcome tagCrates keyedApi pingingClient.flatten packets false (.ok link) := by
  constructor
  · exact (start_shows_iff tagCrates_lawful keyedApi _ _ _ _).mpr ⟨_, rfl, .onlyEncrypted rfl rfl⟩
  · exact ⟨_, _, (start_shows_iff tagCrates_lawful keyedApi pingingClient _ _ _).mp ⟨_, rfl, rfl, rfl, rfl⟩⟩

end EsphomeNativeApi.StartOutcomes
