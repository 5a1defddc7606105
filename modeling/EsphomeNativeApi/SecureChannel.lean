import EsphomeNativeApi.Delivery
import EsphomeNativeApi.EncryptionEnforced
import EsphomeNativeApi.StreamMessages

/-!
An encrypted connection whose client's packets cannot be forged: whatever else is on the
stream, the loops act on the client's messages alone, each once and in order.
-/

namespace EsphomeNativeApi.SecureChannel

open RustSemantics MessageTable Frames FrameFormat PacketEncrypted Api Start Handshake Channels Runs
open ReadLoops ClientTraffic Connection ReadHistories Histories Delivery EncryptionEnforced

variable {C : Crates}

/-- The integrity of the AEAD, for the frames to be found in a stream: one that opens under
a nonce is the packet that the peer sealed with this nonce. -/
def Unforged (C : Crates) (key : C.aead.Key) (n : ℕ) (packets : List Bytes) (stream : Bytes) : Prop :=
  ∀ w packet nonce plaintext, w <:+: stream → IsFrame true w packet → n ≤ nonce →
    C.aead.decrypt key nonce packet = some plaintext → packets[nonce - n]? = some packet

/-- The messages handled are the first of those sent; the answers and the broadcasts are theirs. -/
structure FromPeer (s : Session) (packets : List Bytes) (sent : List (ProtoMessage C.proto)) (c : State C) :
    Prop where
  frames : c.reader.handled.map Prod.fst <+: packets
  messages : messages c.reader <+: sent
  answers : acceptedFrom c .readLoop <+: answersDue s c.reader
  broadcasts : c.reader.outgoing.sent <+: broadcastsDue s c.reader
  received : (valuesOf c.reader.outgoing.received).Sublist c.reader.outgoing.sent

theorem unforged_prefix {key : C.aead.Key} {n : ℕ} {k : Option (CipherState C.aead)}
    {frames packets : List Bytes} {opened : List (ProtoMessage C.proto)}
    (h : openFrames C true (some ⟨key, n⟩) frames = .ok (opened, k))
    (hunforged : ∀ packet ∈ frames, ∀ nonce plaintext, n ≤ nonce →
      C.aead.decrypt key nonce packet = some plaintext → packets[nonce - n]? = some packet) :
    frames <+: packets := by
  induction frames generalizing n k packets opened with
  | nil => exact List.nil_prefix
  | cons frame frames ih =>
    obtain ⟨⟨message, k₁⟩, hm, h⟩ := (bind_ok_iff _ _ _).mp h
    obtain ⟨⟨messages, k₂⟩, hms, h⟩ := (bind_ok_iff _ _ _).mp h
    cases h
    cases (openFrame_ok_iff _ _ _ _ _).mp hm with
    | encrypted key n _ t₁ t₂ l₁ l₂ content _ opens type body =>
      have hfirst := hunforged frame List.mem_cons_self n _ (le_refl n) opens
      rw [Nat.sub_self] at hfirst
      cases packets with
      | nil => cases hfirst
      | cons packet packets =>
        obtain rfl : packet = frame := by simpa using hfirst
        apply (List.prefix_cons_inj _).mpr
        apply ih hms
        -- the frames left are opened with later nonces
        intro later hlater nonce plaintext hnonce hopens
        have hnext := hunforged later (List.mem_cons_of_mem _ hlater) nonce plaintext (by omega) hopens
        have hindex : nonce - n = nonce - (n + 1) + 1 := by omega
        rw [hindex, List.getElem?_cons_succ] at hnext
        exact hnext

theorem openAll_prefix {P : Proto} {A : Aead} {cipher cipher' cipher'' : CipherState A}
    {frames packets : List Bytes} {opened sent : List (ProtoMessage P)} (h : frames <+: packets)
    (hframes : openAll P cipher frames = .ok (opened, cipher'))
    (hpackets : openAll P cipher packets = .ok (sent, cipher'')) : opened <+: sent := by
  induction frames generalizing cipher packets opened sent with
  | nil =>
    cases hframes
    exact List.nil_prefix
  | cons frame frames ih =>
    obtain ⟨more, rfl⟩ := h
    simp only [List.cons_append, openAll] at hframes hpackets
    obtain ⟨⟨result, cipher₁⟩, hr, hframes⟩ := (bind_ok_iff _ _ _).mp hframes
    rw [hr, ok_bind] at hpackets
    obtain ⟨message, hm, hframes⟩ := (bind_ok_iff _ _ _).mp hframes
    rw [hm, ok_bind] at hpackets
    obtain ⟨⟨opened, _⟩, ho, hframes⟩ := (bind_ok_iff _ _ _).mp hframes
    obtain ⟨⟨sent, _⟩, hs, hpackets⟩ := (bind_ok_iff _ _ _).mp hpackets
    cases hframes
    cases hpackets
    exact (List.prefix_cons_inj _).mpr (ih (List.prefix_append _ _) ho hs)

theorem mem_frames {ws frames : List Bytes} {encrypted : Bool} {frame : Bytes}
    (h : List.Forall₂ (IsFrame encrypted) ws frames) (hm : frame ∈ frames) :
    ∃ w ∈ ws, IsFrame encrypted w frame := by
  induction h with
  | nil => cases hm
  | cons hw _ ih =>
    rcases List.mem_cons.mp hm with rfl | hm
    · exact ⟨_, List.mem_cons_self, hw⟩
    · obtain ⟨w, hmem, hframe⟩ := ih hm
      exact ⟨w, List.mem_cons_of_mem _ hmem, hframe⟩

theorem loops_secure (hC : C.Lawful) {s : Session} {e : Established C} (hs : s.encrypted = true)
    {key : C.aead.Key} {n : ℕ} (hk : e.decryptCypher = some ⟨key, n⟩) {packets : List Bytes}
    {sent : List (ProtoMessage C.proto)} {cipher : CipherState C.aead}
    (hpeer : openAll C.proto ⟨key, n⟩ packets = .ok (sent, cipher))
    (hunforged : Unforged C key n packets (e.src.data ++ e.incoming.flatten))
    {actions : List (Action C.proto)} {c : State C} (h : run (State.step s) (initial e) actions = some c) :
    FromPeer s packets sent c := by
  have hhistory := history_run hC.proto h
  have hopened := hhistory.reader.opened
  obtain ⟨ws, rest, hws, hstream, -⟩ := hhistory.reader.framed
  rw [hs, hk] at hopened
  rw [hs] at hws
  have hframes : c.reader.handled.map Prod.fst <+: packets := by
    apply unforged_prefix hopened
    intro packet hm nonce plaintext hnonce hopens
    obtain ⟨w, hw, hframe⟩ := mem_frames hws hm
    apply hunforged w packet nonce plaintext _ hframe hnonce hopens
    rw [hstream]
    exact (List.infix_of_mem_flatten hw).trans (List.prefix_append _ _).isInfix
  obtain ⟨cipher', -, hall⟩ := openFrames_encrypted hopened
  exact ⟨hframes, openAll_prefix hframes hall hpeer, owes_due hhistory.owes, hhistory.reader.broadcast.1,
    (receiving_run hC.proto h).sound.accounts.sublist.trans (List.take_sublist _ _)⟩

theorem secure_channel (C : Crates) (hC : C.Lawful) (api : EspHomeApi) (chunks : List Bytes)
    (outcome : StartRun C) (e : Established C) (hstart : start C api chunks = .ok outcome)
    (he : outcome.result = .ok e) (henc : e.encrypted = true) (key : C.aead.Key) (n : ℕ)
    (hk : e.decryptCypher = some ⟨key, n⟩) (packets : List Bytes) (sent : List (ProtoMessage C.proto))
    (cipher : CipherState C.aead) (hpeer : openAll C.proto ⟨key, n⟩ packets = .ok (sent, cipher))
    (hunforged : Unforged C key n packets chunks.flatten) (streamEnds debugEnabled : Bool)
    (actions : List (Action C.proto)) (c : State C)
    (h : run (State.step ⟨api, true, streamEnds, debugEnabled⟩) (initial e) actions = some c) :
    FromPeer ⟨api, true, streamEnds, debugEnabled⟩ packets sent c := by
  rcases start_admits hC hstart he with ⟨-, -, hplain⟩ | ⟨-, -, -, -, _, -, haccepted⟩
  · rw [henc] at hplain
    cases hplain
  · obtain ⟨hello, request, st, payload, st', ⟨w₁, w₂, -, -, hstream⟩, -, -⟩ := haccepted
    apply loops_secure hC rfl hk hpeer _ h
    intro w packet nonce plaintext hw
    apply hunforged
    rw [hstream]
    exact hw.trans (List.suffix_append _ _).isInfix

/-- A lawful cipher whose seal names the nonce and the length, up to 255. -/
def markedAead : Aead where
  Key := Unit
  encrypt _ n plaintext :=
    plaintext ++ List.replicate 14 170 ++ [UInt8.ofNat (min n 255), UInt8.ofNat (min plaintext.length 255)]
  decrypt _ n ciphertext :=
    let plaintext := ciphertext.take (ciphertext.length - 16)
    if ciphertext = plaintext ++ List.replicate 14 170 ++
        [UInt8.ofNat (min n 255), UInt8.ofNat (min plaintext.length 255)] then some plaintext else none

theorem markedAead_lawful : markedAead.Lawful where
  decrypt_encrypt _ n plaintext := by simp [markedAead]
  encrypt_length _ n plaintext := by simp [markedAead]

def markedCrates : Crates where
  proto := wireProto
  aead := markedAead
  noise :=
    { tagNoise with
      getCiphers := fun _ => (⟨(), 0⟩, ⟨(), 0⟩) }
  base64Decode := tagCrates.base64Decode

theorem markedCrates_lawful : markedCrates.Lawful where
  proto := wireProto_lawful
  aead := markedAead_lawful
  noise :=
    { push_psk := tagNoise_lawful.push_psk
      first_turn := tagNoise_lawful.first_turn
      read_short := tagNoise_lawful.read_short
      read_error := tagNoise_lawful.read_error
      write_turn := tagNoise_lawful.write_turn
      write_length := tagNoise_lawful.write_length }

def sealedPing : Bytes := [0, 7, 0, 0] ++ List.replicate 14 170 ++ [0, 4]

def replayed : List Bytes :=
  [[1, 0, 0], [1, 0, 49] ++ List.replicate 49 0, [1, 0, 20] ++ sealedPing, [1, 0, 20] ++ sealedPing]

theorem frame_at {stream w packet : Bytes} (hw : w <:+: stream) (hframe : IsFrame true w packet) :
    ∃ i ≤ stream.length, ∃ rest, parse true (stream.drop i) = .frame packet rest := by
  obtain ⟨before, after, rfl⟩ := hw
  refine ⟨before.length, by simp, after, ?_⟩
  rw [List.append_assoc, List.drop_left]
  exact parse_isFrame hframe after

def framedAt (stream : Bytes) (i : ℕ) : List Bytes :=
  match parse true (stream.drop i) with
  | .frame packet _ => [packet]
  | _ => []

theorem marked_opens {nonce : ℕ} {ciphertext plaintext : Bytes}
    (h : markedAead.decrypt () nonce ciphertext = some plaintext) :
    ∃ length, ciphertext.drop (ciphertext.length - 16) =
      List.replicate 14 170 ++ [UInt8.ofNat (min nonce 255), length] := by
  simp only [markedAead] at h
  split_ifs at h with hc
  refine ⟨UInt8.ofNat (min (ciphertext.take (ciphertext.length - 16)).length 255), ?_⟩
  have hsplit := List.take_append_drop (ciphertext.length - 16) ciphertext
  rw [List.append_assoc] at hc
  exact List.append_cancel_left (hsplit.trans hc)

theorem replayed_unforged : Unforged markedCrates () 0 [sealedPing] replayed.flatten := by
  intro w packet nonce plaintext hw hframe _ hopens
  have hall : ∀ i < 102, ∀ packet ∈ framedAt replayed.flatten i,
      packet = sealedPing ∨ packet = [] ∨ packet = List.replicate 49 0 := by decide +kernel
  obtain ⟨i, hi, rest, hp⟩ := frame_at hw hframe
  have hlength : replayed.flatten.length = 101 := by decide
  have hpacket := hall i (by omega) packet (by simp [framedAt, hp])
  obtain ⟨length, hmark⟩ := marked_opens hopens
  rcases hpacket with rfl | rfl | rfl
  · -- only the first nonce is marked so
    have hnonce : UInt8.ofNat (min nonce 255) = 0 := by
      have hbyte := congrArg (fun bytes : Bytes => bytes[14]?) hmark
      simpa [sealedPing] using hbyte.symm
    have hzero := congrArg UInt8.toNat hnonce
    rw [UInt8.toNat_ofNat'] at hzero
    have hfirst : nonce = 0 := by
      simp only [UInt8.toNat_zero] at hzero
      omega
    rw [hfirst]
    rfl
  · cases hmark
  · have hbyte := congrArg (fun bytes : Bytes => bytes[0]?) hmark
    revert hbyte
    simp

def replayActions : List (Action wireProto) := List.replicate 5 .read

set_option maxRecDepth 4000 in
theorem secure_channel_replayed_ping :
    ∃ outcome e c, start markedCrates keyedApi replayed = .ok outcome ∧ outcome.result = .ok e ∧
      run (State.step ⟨keyedApi, true, false, false⟩) (initial e) replayActions = some c ∧
      (messages c.reader).length = 1 ∧ panicked c.reader ∧
      FromPeer ⟨keyedApi, true, false, false⟩ [sealedPing] [⟨.pingRequest, []⟩] c :=
  ⟨_, _, _, rfl, rfl, rfl, rfl, ⟨_, rfl⟩,
    secure_channel markedCrates markedCrates_lawful keyedApi replayed _ _ rfl rfl rfl () 0 rfl [sealedPing]
      [⟨.pingRequest, []⟩] ⟨(), 1⟩ rfl replayed_unforged false false replayActions _ rfl⟩

end EsphomeNativeApi.SecureChannel
