import EsphomeNativeApi.Delivery
import EsphomeNativeApi.StreamMessages
import EsphomeNativeApi.Transcript

/-!
Two connections, one of which reads what the other writes.
-/

namespace EsphomeNativeApi.Peers

open RustSemantics MessageTable Frames FrameFormat Framing PacketEncrypted Api Start Channels Runs ReadLoops
open WriteLoops ClientTraffic Connection ReadHistories WriteHistories Histories OutboundOrder Delivery
open StreamMessages Transcript

variable {C : Crates} {encrypted : Bool} {k k' : Option (CipherState C.aead)} {stream : Bytes}

theorem carried_of_reads (hP : C.proto.Lawful) {decoded : List (ProtoMessage C.proto)} {left : Bytes}
    (h : Reads C encrypted k stream decoded left) : carried C encrypted k stream = decoded := by
  obtain ⟨frames, k', ho, hd⟩ := drain_of_reads hP h
  have hall := openWhile_append ho []
  rw [List.append_nil, openWhile, List.append_nil] at hall
  rw [carried, hd, hall]

/-- What one side accepts, the other side handles: the same messages in the same order, up
to what is still under way. -/
theorem peers_agree (C : Crates) (hC : C.Lawful) (s s' : Session) (e e' : Established C)
    (actions actions' : List (Action C.proto)) (c d : State C)
    (hc : run (State.step s) (initial e) actions = some c)
    (hd : run (State.step s') (initial e') actions' = some d)
    (hmode : s'.encrypted = s.encrypted) (hkey : e'.decryptCypher = e.encryptCypher)
    (hwire : e'.src.data ++ e'.incoming.flatten <+: c.writer.wire)
    (hfits : ∀ entry ∈ c.answers.accepted, Fits C s.encrypted entry.2) :
    messages d.reader <+: cutAfterDisconnect (c.answers.accepted.map Prod.snd) ∧
      (valuesOf d.reader.outgoing.received).Sublist
        ((c.answers.accepted.map Prod.snd).filterMap fun message => (s'.api.dispatch message).forward?) ∧
      (e'.src.data ++ e'.incoming.flatten = c.writer.wire → ¬ panicked d.reader →
        parse s'.encrypted d.reader.unread = .incomplete →
        ∃ inFlight, taken c = messages d.reader ++ inFlight ∧ inFlight.length ≤ 1) := by
  have hhistory := history_run hC.proto hc
  have hhistory' := history_run hC.proto hd
  have htaken : ∀ message ∈ taken c, Fits C s.encrypted message := by
    intro message hm
    obtain ⟨entry, hentry, rfl⟩ := List.mem_map.mp hm
    exact hfits entry (c.answers.taken_accepted.subset hentry)
  obtain ⟨decoded, inFlight, left, hreads, hsplit, hone, hquiet, -⟩ := writer_reads hC hhistory.writer htaken
  have hcarried : carried C s.encrypted e.encryptCypher c.writer.wire = decoded :=
    carried_of_reads hC.proto hreads
  have haccepted : c.answers.accepted.map Prod.snd =
      decoded ++ (inFlight ++ c.answers.queue.map Prod.snd) := by
    rw [Mpsc.accepted, List.map_append, ← List.append_assoc, ← hsplit, taken]
  have hhandled : messages d.reader <+: decoded := by
    obtain ⟨rest, hrest⟩ := hwire
    have hprefix : carried C s.encrypted e.encryptCypher (e'.src.data ++ e'.incoming.flatten) <+:
        carried C s.encrypted e.encryptCypher (e'.src.data ++ e'.incoming.flatten ++ rest) :=
      carried_prefix _ _ _
    rw [hrest, hcarried, ← hmode, ← hkey] at hprefix
    exact (handled_carried hhistory'.reader).trans hprefix
  refine ⟨?_, ?_, ?_⟩
  · apply hhandled.trans
    rw [haccepted]
    exact prefix_cut decoded _ hquiet
  · apply (receiving_run hC.proto hd).sound.accounts.sublist.trans
    apply (List.take_sublist _ _).trans
    apply (hhistory'.reader.broadcast.1.trans (hhandled.filterMap _)).sublist.trans
    rw [haccepted, List.filterMap_append]
    exact List.sublist_append_left _ _
  · intro hall halive hwaits
    have hrest := handled_rest hhistory'.reader halive
    rw [carried_incomplete hwaits, List.append_nil, hall, hmode, hkey, hcarried] at hrest
    exact ⟨inFlight, by rw [hsplit, hrest], hone⟩

/-- Reads the `DisconnectResponse` of the other side, in two pieces. -/
def otherSide : Established tagCrates :=
  ⟨true, .empty, [[1, 0, 20, 0, 6], [0, 0] ++ List.replicate 16 0], none, some ⟨(), 0⟩⟩

theorem peers_agree_disconnect :
    ∃ c d : State tagCrates,
      run (State.step encryptedSession) (initial encryptedStart) disconnectThenPing = some c ∧
      run (State.step encryptedSession) (initial otherSide) [.read, .read, .read, .receive] = some d ∧
      messages d.reader = [⟨.disconnectResponse, []⟩] ∧
      messages d.reader <+: cutAfterDisconnect (c.answers.accepted.map Prod.snd) ∧
      ∃ inFlight, taken c = messages d.reader ++ inFlight ∧ inFlight.length ≤ 1 := by
  obtain ⟨c, hc, hwire, haccepted⟩ : ∃ c : State tagCrates,
      run (State.step encryptedSession) (initial encryptedStart) disconnectThenPing = some c ∧
      c.writer.wire = [1, 0, 20, 0, 6, 0, 0] ++ List.replicate 16 0 ∧
      ∀ entry ∈ c.answers.accepted, Fits tagCrates true entry.2 := by
    refine ⟨_, rfl, rfl, ?_⟩
    exact List.forall_mem_cons.mpr ⟨emptyMessage_fits _, List.forall_mem_cons.mpr
      ⟨emptyMessage_fits _, List.forall_mem_nil _⟩⟩
  obtain ⟨d, hd, hmessages, hstate, hunread⟩ : ∃ d : State tagCrates,
      run (State.step encryptedSession) (initial otherSide) [.read, .read, .read, .receive] = some d ∧
      messages d.reader = [⟨.disconnectResponse, []⟩] ∧ d.reader.state = .reading ∧
      d.reader.unread = [] := ⟨_, rfl, rfl, rfl, rfl⟩
  have hall : otherSide.src.data ++ otherSide.incoming.flatten = c.writer.wire := by
    rw [hwire]
    rfl
  have hagree := peers_agree tagCrates tagCrates_lawful encryptedSession encryptedSession encryptedStart
    otherSide disconnectThenPing [.read, .read, .read, .receive] c d hc hd rfl rfl
    (hall ▸ List.prefix_refl _) haccepted
  exact ⟨c, d, hc, hd, hmessages, hagree.1,
    hagree.2.2 hall (not_panicked_reading hstate) (by rw [hunread]; rfl)⟩

end EsphomeNativeApi.Peers
