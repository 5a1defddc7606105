import EsphomeNativeApi.Liveness

/-!
A client that asks to be disconnected and waits: all its requests are answered first, and
then the connection ends.
-/

namespace EsphomeNativeApi.Disconnection

open Filter RustSemantics MessageTable Api Start Channels Runs FairSchedules ReadLoops WriteLoops ClientTraffic
open Connection ReadHistories WriteHistories Histories Applications Safety Withstanding CrashFreedom EndOfStream
open StreamMessages Turns Liveness

variable {C : Crates} {s : Session} {e : Established C} {a : Application C.proto}
  {received : List (ProtoMessage C.proto)} {c : State C} {actions : List (Action C.proto)}

def disconnectResponse (P : Proto) : ProtoMessage P := ⟨.disconnectResponse, P.disconnectResponse⟩

def answersTo (s : Session) {P : Proto} (received : List (ProtoMessage P)) : List (ProtoMessage P) :=
  received.filterMap fun message => (s.api.dispatch message).answer?

theorem answersTo_quiet {P : Proto} {messages : List (ProtoMessage P)}
    (h : ∀ message ∈ messages, isDisconnectRequest message = false) : Quiet (answersTo s messages) := by
  intro response hm
  obtain ⟨request, hrequest, hanswer⟩ := mem_filterMap_answer hm
  have hkind := dispatch_disconnect s.api hanswer
  have hother := h request hrequest
  simp only [isDisconnectRequest, decide_eq_false_iff_not] at hother
  simp only [isDisconnectResponse, decide_eq_false_iff_not]
  exact fun hd => hother (hkind.mp hd)

theorem answersTo_split {P : Proto} {received : List (ProtoMessage P)} (h : QuietAfterDisconnect s received)
    {request : ProtoMessage P} (hm : request ∈ received) (hd : isDisconnectRequest request = true) :
    ∃ before, answersTo s received = before ++ [disconnectResponse P] ∧ Quiet before := by
  obtain ⟨before, after, rfl⟩ := List.append_of_mem hm
  obtain ⟨-, hafter, hbefore⟩ := List.pairwise_append.mp h
  have hanswer := dispatch_disconnectRequest s.api (of_decide_eq_true hd)
  have hsilent : answersTo s after = [] := by
    apply List.filterMap_eq_nil_iff.mpr
    intro later hlater
    cases hdispatch : s.api.dispatch later with
    | answer response => exact absurd ⟨response, hdispatch⟩ ((List.pairwise_cons.mp hafter).1 later hlater hd)
    | _ => rfl
  refine ⟨answersTo s before, ?_, ?_⟩
  · rw [answersTo, List.filterMap_append, List.filterMap_cons, hanswer]
    change _ ++ _ :: answersTo s after = _
    rw [hsilent]
    rfl
  · apply answersTo_quiet
    intro earlier hearlier
    by_contra hdisconnects
    exact hbefore earlier hearlier request List.mem_cons_self (Bool.not_eq_false _ ▸ hdisconnects) ⟨_, hanswer⟩

theorem disconnects_none (hh : Harmless s a received) {request : ProtoMessage C.proto} (hm : request ∈ received)
    (hd : isDisconnectRequest request = true) {response : ProtoMessage C.proto} (hsends : a.sends response) :
    isDisconnectResponse response = false := by
  by_contra hdisconnects
  exact hh.disconnects response hsends (Bool.not_eq_false _ ▸ hdisconnects) request hm
    ⟨_, dispatch_disconnectRequest s.api (of_decide_eq_true hd)⟩

theorem accepted_first (hsafe : Safe s a received c) (hhistory : History s e actions c) :
    acceptedFrom c .readLoop <+: answersTo s received := by
  obtain ⟨rest, -, hsplit⟩ := hsafe.reader.rest
  rw [answersTo, hsplit, List.filterMap_append]
  exact (owes_due hhistory.owes).trans (List.prefix_append _ _)

/-- The queue has given the write loop every answer, the last of them a `DisconnectResponse`. -/
structure Disconnected (s : Session) (received : List (ProtoMessage C.proto))
    (taken : List (Producer × ProtoMessage C.proto)) : Prop where
  answered : taken.filterMap (from? .readLoop) = answersTo s received
  last : ∃ before, taken = before ++ [(.readLoop, disconnectResponse C.proto)] ∧ Quiet (before.map Prod.snd)

theorem disconnected_of_taken (hh : Harmless s a received) {request : ProtoMessage C.proto} (hm : request ∈ received)
    (hd : isDisconnectRequest request = true) (hsafe : Safe s a received c) (hhistory : History s e actions c)
    (hquiet : Quiet (taken c).dropLast) {response : ProtoMessage C.proto} (htaken : response ∈ taken c)
    (hresponse : isDisconnectResponse response = true) : Disconnected s received c.answers.taken := by
  obtain ⟨before, hsplit, hbefore⟩ := answersTo_split hh.after_disconnect hm hd
  obtain ⟨⟨producer, response⟩, hentry, rfl⟩ := List.mem_map.mp htaken
  have haccepted := c.answers.taken_accepted.subset hentry
  have hloop : producer = .readLoop := by
    cases producer with
    | readLoop => rfl
    | application task =>
      rw [disconnects_none hh hm hd (hsafe.sends task response haccepted)] at hresponse
      cases hresponse
  subst hloop
  have hall : c.answers.taken.filterMap (from? .readLoop) = answersTo s received := by
    have hfirst : c.answers.taken.filterMap (from? .readLoop) <+: answersTo s received :=
      (c.answers.taken_accepted.filterMap _).trans (accepted_first hsafe hhistory)
    have hmem : response ∈ c.answers.taken.filterMap (from? .readLoop) :=
      List.mem_filterMap.mpr ⟨_, hentry, by simp [from?]⟩
    rw [hsplit] at hfirst ⊢
    rcases List.prefix_concat_iff.mp hfirst with hall | hearlier
    · exact hall
    · rw [hbefore response (hearlier.subset hmem)] at hresponse
      cases hresponse
  refine ⟨hall, ?_⟩
  -- what comes before the last one taken is quiet, and so the response is the last
  obtain ⟨first, last, hlast⟩ : ∃ first last, c.answers.taken = first ++ [last] :=
    ⟨_, _, (List.dropLast_append_getLast (List.ne_nil_of_mem hentry)).symm⟩
  rw [taken, hlast, List.map_append, List.map_singleton, List.dropLast_concat] at hquiet
  rw [hlast] at hentry hall ⊢
  rcases List.mem_append.mp hentry with hearlier | hlatest
  · rw [hquiet response (List.mem_map.mpr ⟨_, hearlier, rfl⟩)] at hresponse
    cases hresponse
  · obtain rfl := List.mem_singleton.mp hlatest
    rw [hsplit, List.filterMap_append] at hall
    have hsame : response = disconnectResponse C.proto := by
      simpa [from?] using (List.append_inj' hall rfl).2
    exact ⟨first, by rw [hsame], hquiet⟩

section Schedules

variable {S : Schedule (State.step (C := C) s)}

theorem writer_disconnects (hC : C.Lawful) (h0 : S.state 0 = initial e) (hfair : Fair S)
    (hholds : ∀ n, readerHoldsSender (S.state n).reader = true) {request : ProtoMessage C.proto}
    (hm : request ∈ carried C s.encrypted e.decryptCypher (e.src.data ++ e.incoming.flatten))
    (hd : isDisconnectRequest request = true) : ∃ n, (S.state n).writer.running = false := by
  by_contra hnever
  have hrunning : ∀ n, (S.state n).writer.running = true := by
    intro n
    by_contra hended
    exact hnever ⟨n, Bool.eq_false_iff.mpr hended⟩
  -- otherwise the `DisconnectResponse` is accepted, taken and written, and the loop goes on
  obtain ⟨n, hmessages, hanswered, -⟩ := (reads_all hC h0 hfair hholds).exists
  have hdue := disconnect_due (s := s) (r := (S.state n).reader) (hmessages ▸ hm) hd
  have haccepted := mem_acceptedFrom_iff.mp (hanswered ▸ hdue)
  obtain ⟨m, -, htaken⟩ := takes_all hC.proto hfair hrunning n
  obtain ⟨k, hk, hpolling⟩ := finishes_frame hC.proto hfair hrunning m
  have hlater := grows (S := S) hC.proto (fun c => c.answers.taken) (fun _ _ _ => taken_step) hk
  have hresponse := List.mem_map_of_mem (f := Prod.snd) (hlater.subset (htaken.subset haccepted))
  obtain ⟨actions, -, hhistory⟩ := schedule_history hC.proto h0 k
  have hquiet := (polling_history hhistory (hrunning k) hpolling).1 _ hresponse
  simp [isDisconnectResponse] at hquiet

end Schedules

/-- A client that asks to be disconnected, and stays until it is: all its requests are
answered, and the last frame on the wire is the `DisconnectResponse`. -/
theorem disconnect_honoured (C : Crates) (hC : C.Lawful) (api : EspHomeApi) (chunks : List Bytes)
    (outcome : StartRun C) (e : Established C) (hstart : start C api chunks = .ok outcome)
    (he : outcome.result = .ok e) (debugEnabled : Bool) (received : List (ProtoMessage C.proto))
    (ht : Traffic C e.encrypted e.decryptCypher (e.src.data ++ e.incoming.flatten) received)
    (request : ProtoMessage C.proto) (hm : request ∈ received) (hd : isDisconnectRequest request = true)
    (a : Application C.proto) (hfree : CrashFree ⟨api, e.encrypted, false, debugEnabled⟩ e a)
    (S : Schedule (State.step (C := C) ⟨api, e.encrypted, false, debugEnabled⟩)) (h0 : S.state 0 = initial e)
    (hallowed : ∀ n action, S.action n = some action → a.Allows action) (hfair : Fair S) :
    ∃ entries, Disconnected ⟨api, e.encrypted, false, debugEnabled⟩ received entries ∧
      ∀ᶠ n in atTop, messages (S.state n).reader = received ∧ (S.state n).writer.state = .stopped ∧
        (S.state n).answers.taken = entries ∧
        Written C e.encrypted e.encryptCypher (S.state n).writer.wire (entries.map Prod.snd) := by
  have hk := established_keyed hC hstart he
  have hh := harmless_of_crash_free (s := ⟨api, e.encrypted, false, debugEnabled⟩) hC hk ht hfree
  have hsafe := fun n => safe_run hC hk ht hh (schedule_reached h0 hallowed n)
  have hholds : ∀ n, readerHoldsSender (S.state n).reader = true := by
    intro n
    obtain ⟨hsafe, actions, hhistory⟩ := hsafe n
    exact keeps_reading hsafe.reader hhistory rfl
  obtain ⟨N, hended⟩ := writer_disconnects hC h0 hfair hholds (traffic_carried ht ▸ hm) hd
  have hkept : ∀ n, N ≤ n → (S.state n).writer = (S.state N).writer ∧ (S.state n).answers = (S.state N).answers := by
    apply S.always (fun c => c.writer = (S.state N).writer ∧ c.answers = (S.state N).answers) N ⟨rfl, rfl⟩
    rintro n action hn ⟨hwriter, hanswers⟩ hmoves
    obtain ⟨hwriter', hanswers'⟩ := ended_frame (by rw [hwriter, hended]) (step_cases hC.proto hmoves)
    exact ⟨hwriter'.trans hwriter, hanswers'.trans hanswers⟩
  obtain ⟨hsafe, actions, hhistory⟩ := hsafe N
  have hstopped : (S.state N).writer.state = .stopped := hsafe.stopped_of_ended hended
  obtain ⟨response, htaken, hresponse⟩ := (hsafe.stopped hstopped).resolve_left (unended hsafe.reader rfl)
  have hwriter := hhistory.writer
  rw [WriterHistory, hstopped] at hwriter
  obtain ⟨hquiet, packets, hsealed, hwire⟩ := hwriter
  refine ⟨(S.state N).answers.taken, disconnected_of_taken hh hm hd hsafe hhistory hquiet htaken hresponse, ?_⟩
  apply ((reads_all hC h0 hfair hholds).and (eventually_ge_atTop N)).mono
  rintro n ⟨⟨hmessages, -⟩, hn⟩
  obtain ⟨hwriter, hanswers⟩ := hkept n hn
  rw [hwriter, hanswers]
  exact ⟨hmessages.trans (traffic_carried ht), hstopped, rfl, packets, _, hsealed, hwire⟩

def leaving : List (ProtoMessage tagCrates.proto) := [⟨.pingRequest, []⟩, ⟨.disconnectRequest, []⟩]

theorem leaving_traffic : Traffic tagCrates false none [0, 0, 7, 0, 0, 5] leaving :=
  traffic_emptyFrame 7 _ rfl (traffic_emptyFrame 5 [] rfl (.done _))

theorem leaving_harmless : Harmless (C := tagCrates) ⟨testDevice, false, false, false⟩
    ⟨fun _ => False, false, false⟩ leaving := by
  refine ⟨?_, fun _ h => h.elim, fun _ h => h.elim, ?_, by simp, by simp⟩
  · refine .cons ?_ (.cons (List.forall_mem_nil _) .nil)
    intro later _ hd
    cases hd
  · refine List.forall_mem_cons.mpr ⟨?_, List.forall_mem_cons.mpr ⟨?_, List.forall_mem_nil _⟩⟩
    · rintro response ⟨⟩
      exact emptyMessage_encodable .pingResponse
    · rintro response ⟨⟩
      exact emptyMessage_encodable .disconnectResponse

theorem disconnect_honoured_ping :
    ∃ outcome e, ∃ S : Schedule (State.step (C := tagCrates) ⟨testDevice, false, false, false⟩),
      start tagCrates testDevice [[0, 0, 7, 0, 0, 5]] = .ok outcome ∧ outcome.result = .ok e ∧
      S.state 0 = initial e ∧ Fair S ∧
      ∃ entries, Disconnected ⟨testDevice, false, false, false⟩ leaving entries ∧
        ∀ᶠ n in atTop, (S.state n).writer.state = .stopped ∧
          Written tagCrates false none (S.state n).writer.wire (entries.map Prod.snd) := by
  have hfree : CrashFree ⟨testDevice, false, false, false⟩ (plaintextStart [[0, 0, 7, 0, 0, 5]])
      ⟨fun _ => False, false, false⟩ :=
    crash_free_of_harmless tagCrates_lawful (by simp) leaving_traffic leaving_harmless
  obtain ⟨c, hrun, hwaits, hended⟩ : ∃ c, run (State.step ⟨testDevice, false, false, false⟩)
      (initial (plaintextStart [[0, 0, 7, 0, 0, 5]]))
      [.read, .read, .read, .read, .read, .write 1, .write 1, .write 9, .write 1, .write 1, .write 9] = some c ∧
      (State.step ⟨testDevice, false, false, false⟩ c .read).isNone = true ∧ c.writer.running = false :=
    run_check (by decide +kernel)
  obtain ⟨S, h0, hends, hfrom⟩ := (Schedule.rest c).exists_prepend hrun
  have hreads : ¬ Enabled (State.step ⟨testDevice, false, false, false⟩) ofReader c := by
    rintro ⟨action, rfl, hsome⟩
    rw [Option.isNone_iff_eq_none.mp hwaits] at hsome
    cases hsome
  have hfair : Fair S :=
    ⟨hends.stronglyFair (Schedule.stronglyFair_of_disabled _ fun _ => hreads),
      hends.weaklyFair (Schedule.weaklyFair_of_disabled _ fun _ => ended_disabled hended)⟩
  obtain ⟨entries, hdisconnected, hstopped⟩ := disconnect_honoured tagCrates tagCrates_lawful testDevice
    [[0, 0, 7, 0, 0, 5]] _ _ rfl rfl false leaving leaving_traffic ⟨.disconnectRequest, []⟩ (by simp [leaving]) rfl
    ⟨fun _ => False, false, false⟩ hfree S h0 (by
      intro n action haction
      rcases hfrom n action haction with hm | ⟨m, hm⟩
      · simp only [List.mem_cons, List.not_mem_nil, or_false] at hm
        rcases hm with rfl | rfl | rfl | rfl | rfl | rfl | rfl | rfl | rfl | rfl | rfl <;> trivial
      · cases hm) hfair
  exact ⟨_, _, S, rfl, rfl, h0, hfair, entries, hdisconnected, hstopped.mono fun n hn => ⟨hn.2.1, hn.2.2.2⟩⟩

end EsphomeNativeApi.Disconnection
