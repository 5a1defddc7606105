import EsphomeNativeApi.Handshake

/-!
How the connection set-up ends: for which configurations and client streams `start`
returns at all, and that what it rejects it rejects with an error.
-/

namespace EsphomeNativeApi.StartTotality

open RustSemantics FrameFormat PacketEncrypted Api Start Handshake

variable {C : Crates}

/-- The stream opens with a whole handshake of the client, or asks for none. -/
def WellFormed (C : Crates) (stream : Bytes) : Prop :=
  stream.head? = some 0 ∨ ∃ hello request rest, ClientHandshake stream hello request rest ∧
    1 + C.noise.overhead ≤ request.length

def Total (C : Crates) (api : EspHomeApi) (chunks : List Bytes) : Prop :=
  ∃ run, start C api chunks = .ok run ∧ (¬ WellFormed C chunks.flatten → ∃ e, run.result = .error e)

/-- The handshake can be carried through: the two frames are there, the key is one, and the
library can answer a request that it accepts. -/
def Completes (C : Crates) (api : EspHomeApi) (key : String) (stream : Bytes) : Prop :=
  ∃ hello request rest psk, ClientHandshake stream hello request rest ∧ HelloFits api ∧
    C.base64Decode key = some psk ∧ psk.length = 32 ∧ 1 + C.noise.overhead ≤ request.length ∧
    ∀ st payload st', C.noise.pushPsk C.noise.new psk = .ok st →
      C.noise.readMessageVec st (request.drop 1) = (.ok payload, st') →
      ∃ out st'', C.noise.writeMessageVec st' [] = .ok (.ok out, st'')

theorem handshake_returns_iff (hC : C.Lawful) (api : EspHomeApi) (key : String) (chunks : List Bytes) :
    (∃ run, handshake C api key chunks = .ok run) ↔ Completes C api key chunks.flatten := by
  constructor
  · rintro ⟨run, h⟩
    obtain ⟨hello, request, src, chunks', hfits, hc, h⟩ := handshake_ok h
    obtain ⟨st, hst⟩ := readRequest_readable hC h
    have ⟨⟨psk, hk, hp⟩, hlong⟩ := hst
    refine ⟨hello, request, _, psk, hc, hfits, hk, (hC.noise.push_psk psk).mp ⟨st, hp⟩, hlong, ?_⟩
    intro st₁ payload st' hp₁ hr
    obtain rfl : st = st₁ := Except.ok.inj (hp.symm.trans hp₁)
    rcases (readRequest_cases hC hst).mp h with ⟨st₂, hr₂, -⟩ | ⟨payload₂, st₂, out, st'', hr₂, hw, -⟩
    · rw [hr] at hr₂
      cases hr₂
    · rw [hr] at hr₂
      cases hr₂
      exact ⟨out, st'', hw⟩
  · rintro ⟨hello, request, rest, psk, hc, hfits, hk, hpsk, hlong, hwrite⟩
    obtain ⟨st, hp⟩ := (hC.noise.push_psk psk).mpr hpsk
    have hst : Readable C key request st := ⟨⟨psk, hk, hp⟩, hlong⟩
    obtain ⟨src, chunks', he, -⟩ := handshake_eq (C := C) api key chunks hello request rest hc hfits
    rw [he]
    cases hr : C.noise.readMessageVec st (request.drop 1) with
    | mk result st' =>
      cases result with
      | ok payload =>
        obtain ⟨out, st'', hw⟩ := hwrite st payload st' hp hr
        exact ⟨_, (readRequest_cases hC hst).mpr (.inr ⟨payload, st', out, st'', hr, hw, rfl⟩)⟩
      | error e =>
        obtain rfl := hst.decryption hC hr
        exact ⟨_, (readRequest_cases hC hst).mpr (.inl ⟨st', hr, rfl⟩)⟩

theorem setup_total_iff (C : Crates) (hC : C.Lawful) (api : EspHomeApi) (chunks : List Bytes) :
    Total C api chunks ↔
      ∀ key, api.encryptionKey = some key → chunks.flatten.head? = some 1 →
        Completes C api key chunks.flatten := by
  constructor
  · rintro ⟨run, h, -⟩ key hkey hhead
    rw [start_of_head hhead, if_neg (by decide), if_pos rfl, hkey] at h
    exact (handshake_returns_iff hC api key chunks).mp ⟨run, h⟩
  · intro h
    cases hs : chunks.flatten with
    | nil => exact ⟨_, start_empty hs, fun _ => ⟨_, rfl⟩⟩
    | cons preamble s =>
      have hhead : chunks.flatten.head? = some preamble := by rw [hs]; rfl
      unfold Total
      rw [start_of_head hhead]
      split_ifs with h0 hk h1
      · exact ⟨_, rfl, fun _ => ⟨_, rfl⟩⟩
      · exact ⟨_, rfl, fun hw => absurd (.inl (h0 ▸ hhead)) hw⟩
      · cases hk : api.encryptionKey with
        | none => exact ⟨_, rfl, fun _ => ⟨_, rfl⟩⟩
        | some key =>
          have hcomplete := h key hk (h1 ▸ hhead)
          obtain ⟨run, hrun⟩ := (handshake_returns_iff hC api key chunks).mpr hcomplete
          obtain ⟨hello, request, rest, psk, hc, -, -, -, hlong, -⟩ := hcomplete
          exact ⟨run, hrun, fun hw => absurd (.inr ⟨hello, request, rest, hc, hlong⟩) hw⟩
      · exact ⟨_, rfl, fun _ => ⟨_, rfl⟩⟩

theorem marker_alone_panics :
    ¬ Total tagCrates { name := "test-device", encryptionKey := some zeroKey } [[1]] := by
  rintro ⟨run, h, -⟩
  cases h

theorem setup_total_handshake :
    Total tagCrates { name := "test-device", encryptionKey := some zeroKey }
      [[1, 0, 0], [1, 0, 49] ++ List.replicate 49 0] := by
  apply (setup_total_iff tagCrates tagCrates_lawful { name := "test-device", encryptionKey := some zeroKey }
    [[1, 0, 0], [1, 0, 49] ++ List.replicate 49 0]).mpr
  intro key hkey _
  cases hkey
  have hclient : ClientHandshake [[1, 0, 0], [1, 0, 49] ++ List.replicate 49 0].flatten []
      (List.replicate 49 0) [] :=
    ⟨_, _, .encrypted 0 0 [] rfl, .encrypted 0 49 (List.replicate 49 0) rfl, rfl⟩
  have hfits : HelloFits { name := "test-device", encryptionKey := some zeroKey } := by
    unfold HelloFits
    decide
  refine ⟨[], List.replicate 49 0, [], List.replicate 32 0, hclient, hfits, rfl, rfl, by decide, ?_⟩
  intro st payload st' hpsk hread
  cases hpsk
  cases hread
  exact ⟨_, _, rfl⟩

end EsphomeNativeApi.StartTotality
