import EsphomeNativeApi.CrashFreedom
import EsphomeNativeApi.EndOfStream
import EsphomeNativeApi.FairSchedules
import EsphomeNativeApi.StreamMessages
import EsphomeNativeApi.Turns

/-!
What a connection comes to in the end, in every schedule in which both loops get their
turns and the socket keeps taking bytes.
-/

namespace EsphomeNativeApi.Liveness

open Filter RustSemantics MessageTable Frames FrameFormat FrameEncoding PacketEncrypted Api Start Channels Runs
open FairSchedules ReadLoops WriteLoops ClientTraffic Connection ReadHistories WriteHistories Histories
open Applications Safety Withstanding CrashFreedom EndOfStream StreamMessages Turns

variable {C : Crates} {s : Session} {c d : State C} {action : Action C.proto}

def ofReader {P : Proto} (action : Action P) : Prop := action = .read

def ofWriter {P : Proto} (action : Action P) : Prop := ∃ count, 0 < count ∧ action = .write count

/-- The read loop gets its turns, also for room in the queue, where senders line up. The
write loop gets its turns, and the socket does not refuse bytes forever. -/
structure Fair (S : Schedule (State.step (C := C) s)) : Prop where
  reads : S.StronglyFair ofReader
  writes : S.WeaklyFair ofWriter

theorem write_enabled (h : c.writer.running = true) : Enabled (State.step s) ofWriter c := by
  refine ⟨.write 1, ⟨1, one_pos, rfl⟩, ?_⟩
  cases hw : c.writer.state with
  | stopped => simp [WriteLoop.running, hw] at h
  | panicked p => simp [WriteLoop.running, hw] at h
  | _ => simp [State.step, State.writeStep, hw]

/-- All that the client has sent is handled, as far as it makes up frames. -/
structure Waiting (s : Session) (r : ReadLoop C) : Prop where
  reading : r.state = .reading
  incoming : r.incoming = []
  incomplete : parse s.encrypted r.src.data = .incomplete
  unended : s.streamEnds = false

theorem read_disabled (hP : C.proto.Lawful) (hholds : readerHoldsSender c.reader = true)
    (h : ¬ Enabled (State.step s) ofReader c) :
    Waiting s c.reader ∨
      ((∃ response, c.reader.state = .answering response) ∧ c.writer.running = true ∧ c.hasRoom = false) := by
  have hnone : c.readStep s = none := by
    by_contra hsome
    exact h ⟨.read, rfl, Option.isSome_iff_ne_none.mpr hsome⟩
  rw [State.readStep] at hnone
  cases hr : c.reader.state with
  | reading =>
    simp only [hr, Option.map_eq_none_iff] at hnone
    left
    cases hs : s.streamEnds with
    | true =>
      obtain ⟨t, ht⟩ := ReadLoop.read_isSome (r := c.reader) c.receiverAlive hP hs
      rw [ht] at hnone
      cases hnone
    | false =>
      cases hp : parse s.encrypted c.reader.src.data with
      | frame frame rest =>
        obtain ⟨src, -, hread⟩ := ReadLoop.read_frame c.receiverAlive hP hp
        rw [hread] at hnone
        cases hnone
      | fail e =>
        obtain ⟨src, -, hread⟩ := ReadLoop.read_fail c.receiverAlive hP hp
        rw [hread] at hnone
        cases hnone
      | incomplete =>
        cases hi : c.reader.incoming with
        | nil => exact ⟨hr, hi, hp, hs⟩
        | cons chunk chunks =>
          obtain ⟨src, -, hread⟩ := ReadLoop.read_chunk c.receiverAlive hP hp hi
          rw [hread] at hnone
          cases hnone
  | answering response =>
    simp only [hr] at hnone
    split_ifs at hnone with hrunning hroom
    exact .inr ⟨⟨response, rfl⟩, hrunning, Bool.eq_false_iff.mpr hroom⟩
  | stopping => simp [hr] at hnone
  | stopped => simp [readerHoldsSender, hr] at hholds
  | panicked p => simp [readerHoldsSender, hr] at hholds

section Schedules

variable {e : Established C} {S : Schedule (State.step (C := C) s)} {received : List (ProtoMessage C.proto)}
  {N n m : ℕ}

theorem grows (hP : C.proto.Lawful) {α : Type} (history : State C → List α)
    (hstep : ∀ c d action, Transition s c action d → history c <+: history d) (h : n ≤ m) :
    history (S.state n) <+: history (S.state m) := by
  apply S.always (fun c => history (S.state n) <+: history c) n (List.prefix_refl _) ?_ m h
  intro k action _ ih hmoves
  exact ih.trans (hstep _ _ _ (step_cases hP hmoves))

theorem writes_often (hfair : Fair S) (hrunning : ∀ n, N ≤ n → (S.state n).writer.running = true) :
    ∃ᶠ n in atTop, S.Takes ofWriter n := by
  apply hfair.writes
  apply eventually_atTop.mpr
  exact ⟨N, fun n hn => write_enabled (hrunning n hn)⟩

theorem takes_answer (hP : C.proto.Lawful) (hfair : Fair S)
    (hrunning : ∀ n, N ≤ n → (S.state n).writer.running = true) (hqueue : (S.state N).answers.queue ≠ []) :
    ∃ n, N ≤ n ∧ (S.state n).answers.taken ≠ (S.state N).answers.taken := by
  have hwaits : ∀ n, N ≤ n → ¬ (S.state n).answers.taken ≠ (S.state N).answers.taken →
      (S.state n).answers.queue ≠ [] := by
    intro n hn hsame hempty
    obtain ⟨more, hmore⟩ :=
      grows (S := S) hP (fun c => c.answers.accepted) (fun _ _ _ => accepted_step) hn
    rw [Mpsc.accepted, Mpsc.accepted, hempty, not_not.mp hsame, List.append_assoc] at hmore
    exact hqueue (List.append_eq_nil_iff.mp (List.append_cancel_left hmore)).1
  have hstep : ∀ n action, N ≤ n → ¬ (S.state n).answers.taken ≠ (S.state N).answers.taken →
      State.step s (S.state n) action = some (S.state (n + 1)) →
      (S.state (n + 1)).answers.taken ≠ (S.state N).answers.taken ∨
        (untilTaking (S.state (n + 1)).writer.state ≤ untilTaking (S.state n).writer.state ∧
          (ofWriter action →
            untilTaking (S.state (n + 1)).writer.state < untilTaking (S.state n).writer.state)) := by
    intro n action hn hsame hmoves
    by_cases hnext : (S.state (n + 1)).answers.taken = (S.state N).answers.taken
    · obtain ⟨hle, hlt⟩ := taking_step (step_cases hP hmoves) (hrunning (n + 1) (by omega)) (hwaits n hn hsame)
        (hnext.trans (not_not.mp hsame).symm)
      right
      refine ⟨hle, ?_⟩
      rintro ⟨count, hcount, hwrite⟩
      exact hlt count hcount hwrite
    · exact .inl hnext
  apply S.reaches_of_rank (fun c => untilTaking c.writer.state)
    (fun c => c.answers.taken ≠ (S.state N).answers.taken) N ?_ ?_ (writes_often hfair hrunning)
  · intro n action hn hsame hmoves
    exact (hstep n action hn hsame hmoves).imp_right And.left
  · intro n action hn hsame hmoves hwrite
    exact (hstep n action hn hsame hmoves).imp_right fun h => h.2 hwrite

theorem schedule_history (hP : C.proto.Lawful) (h0 : S.state 0 = initial e) (n : ℕ) :
    ∃ actions, run (State.step s) (initial e) actions = some (S.state n) ∧
      History s e actions (S.state n) := by
  obtain ⟨actions, h⟩ := S.run_to n
  rw [h0] at h
  exact ⟨actions, h, history_run hP h⟩

theorem schedule_reached {a : Application C.proto} (h0 : S.state 0 = initial e)
    (hallowed : ∀ n action, S.action n = some action → a.Allows action) (n : ℕ) : Reached s e a (S.state n) := by
  rw [Reached, ← h0]
  exact S.reaches hallowed n

/-- A full queue does not keep the read loop waiting forever. -/
theorem not_blocked (hP : C.proto.Lawful) (h0 : S.state 0 = initial e) (hfair : Fair S)
    (hdisabled : ∀ n, N ≤ n → ¬ Enabled (State.step s) ofReader (S.state n))
    (hanswering : ∃ response, (S.state N).reader.state = .answering response) : False := by
  obtain ⟨response, hr⟩ := hanswering
  have hstays : ∀ n, N ≤ n → (S.state n).reader.state = .answering response := by
    apply S.always (fun c => c.reader.state = .answering response) N hr
    intro n action hn ih hmoves
    rw [reader_kept (step_cases hP hmoves) ?_]
    · exact ih
    · rintro rfl
      exact hdisabled n hn ⟨.read, rfl, by rw [hmoves]; rfl⟩
  have hblocked : ∀ n, N ≤ n → (S.state n).writer.running = true ∧ (S.state n).hasRoom = false := by
    intro n hn
    have hholds : readerHoldsSender (S.state n).reader = true := by rw [readerHoldsSender, hstays n hn]
    rcases read_disabled hP hholds (hdisabled n hn) with hwaiting | ⟨-, hrunning, hroom⟩
    · cases hwaiting.reading.symm.trans (hstays n hn)
    · exact ⟨hrunning, hroom⟩
  have hfull : ∀ n, N ≤ n → (S.state n).answers.queue.length = capacity := by
    intro n hn
    obtain ⟨actions, hrun, -⟩ := schedule_history hP h0 n
    have hle := queue_bounded hP hrun
    have hroom := (hblocked n hn).2
    rw [State.hasRoom, decide_eq_false_iff_not, not_lt] at hroom
    exact le_antisymm hle hroom
  have hsame : ∀ n, N ≤ n → (S.state n).answers.accepted = (S.state N).answers.accepted := by
    apply S.always (fun c => c.answers.accepted = (S.state N).answers.accepted) N rfl
    intro n action hn ih hmoves
    rw [← ih]
    have hroom := (hblocked n hn).2
    generalize S.state (n + 1) = d at hmoves
    cases step_cases hP hmoves with
    | answered response' answering running room => cases room.symm.trans hroom
    | sent task message alive running room => cases room.symm.trans hroom
    | took count producer message answers polling popped => exact (Mpsc.pop_some popped).2.2
    | _ => rfl
  have hqueue : (S.state N).answers.queue ≠ [] := by
    apply List.ne_nil_of_length_pos
    rw [hfull N (le_refl N)]
    exact Nat.succ_pos _
  obtain ⟨n, hn, htaken⟩ := takes_answer hP hfair (fun n hn => (hblocked n hn).1) hqueue
  apply htaken
  apply (List.append_inj' (hsame n hn) ?_).1
  rw [hfull n hn, hfull N (le_refl N)]

theorem settles (hP : C.proto.Lawful) (h0 : S.state 0 = initial e) (hfair : Fair S)
    (hholds : ∀ n, readerHoldsSender (S.state n).reader = true) :
    ∀ᶠ n in atTop, Waiting s (S.state n).reader := by
  have hdisabled := S.eventually_disabled hfair.reads (fun c => readWork c.reader)
    (fun n action hmoves => (work_step (step_cases hP hmoves)).1)
    (fun n action hmoves hread => (work_step (step_cases hP hmoves)).2 hread)
  obtain ⟨N, hdisabled⟩ := eventually_atTop.mp hdisabled
  apply eventually_atTop.mpr
  refine ⟨N, ?_⟩
  intro n hn
  apply (read_disabled hP (hholds n) (hdisabled n hn)).resolve_right
  rintro ⟨hanswering, -, -⟩
  exact not_blocked hP h0 hfair (fun m hm => hdisabled m (hn.trans hm)) hanswering

theorem writer_ends (hP : C.proto.Lawful) (h0 : S.state 0 = initial e) (hfair : Fair S)
    (hreleased : ∀ n, N ≤ n → readerHoldsSender (S.state n).reader = false) :
    ∃ n, N ≤ n ∧ (S.state n).writer.running = false := by
  by_contra hnever
  have hrunning : ∀ n, N ≤ n → (S.state n).writer.running = true := by
    intro n hn
    by_contra hended
    exact hnever ⟨n, hn, Bool.eq_false_iff.mpr hended⟩
  have hcancelled : ∀ n, N ≤ n → (S.state n).reader.cancellation ≠ .waiting := by
    intro n hn hwaiting
    obtain ⟨actions, -, hhistory⟩ := schedule_history hP h0 n
    have hsignals := hhistory.signals
    have hended := hreleased n hn
    unfold readerHoldsSender at hended
    unfold Signals at hsignals
    split at hended
    · rename_i hr
      simp only [hr, hwaiting, reduceCtorEq] at hsignals
    · rename_i p hr
      simp only [hr, hwaiting, reduceCtorEq] at hsignals
    · cases hended
  have hstep : ∀ n action, N ≤ n → State.step s (S.state n) action = some (S.state (n + 1)) →
      untilEnding (S.state (n + 1)).writer.state ≤ untilEnding (S.state n).writer.state ∧
        ∀ count, 0 < count → action = .write count →
          untilEnding (S.state (n + 1)).writer.state < untilEnding (S.state n).writer.state :=
    fun n action hn hmoves => ending_step (step_cases hP hmoves) (hrunning (n + 1) (by omega)) (hcancelled n hn)
  have hreaches : ∃ n, N ≤ n ∧ False := by
    apply S.reaches_of_rank (fun c => untilEnding c.writer.state) (fun _ => False) N ?_ ?_
      (writes_often hfair hrunning)
    · intro n action hn _ hmoves
      exact .inr (hstep n action hn hmoves).1
    · rintro n action hn - hmoves ⟨count, hcount, hwrite⟩
      exact .inr ((hstep n action hn hmoves).2 count hcount hwrite)
  exact hreaches.choose_spec.2

/-- The wire starts with the frames of these messages. -/
def OnWire (C : Crates) (encrypted : Bool) (k : Option (CipherState C.aead)) (wire : Bytes)
    (messages : List (ProtoMessage C.proto)) : Prop :=
  ∃ packets k', Sealed C encrypted k messages packets k' ∧ framesOf encrypted packets <+: wire

theorem onWire_prefix {encrypted : Bool} {k k' : Option (CipherState C.aead)}
    {messages all : List (ProtoMessage C.proto)} {packets : List Bytes}
    (h : Sealed C encrypted k all packets k') (hfirst : messages <+: all) :
    OnWire C encrypted k (framesOf encrypted packets) messages := by
  induction h with
  | none =>
    rw [List.prefix_nil.mp hfirst]
    exact ⟨[], k, .none, List.prefix_refl _⟩
  | @snoc before packets k₁ message packet k₂ hbefore hlast ih =>
    rcases List.prefix_concat_iff.mp hfirst with rfl | hfirst
    · exact ⟨packets ++ [packet], k₂, .snoc hbefore hlast, List.prefix_refl _⟩
    · obtain ⟨fewer, k', hsealed, hframes⟩ := ih hfirst
      refine ⟨fewer, k', hsealed, hframes.trans ?_⟩
      rw [framesOf_snoc]
      exact List.prefix_append _ _

theorem wire_step (ht : Transition s c action d) : c.writer.wire <+: d.writer.wire := by
  cases ht with
  | cancellationPolled count polling =>
    cases h : c.reader.cancellation <;> simp [WriteLoop.pollCancellation]
  | took count producer message answers polling popped =>
    simp only [WriteLoop.answer]
    split <;> exact List.prefix_refl _
  | wrote count message pending writing =>
    simp only [WriteLoop.write]
    split_ifs <;> exact List.prefix_append _ _
  | _ => exact List.prefix_refl _

theorem takes_all (hP : C.proto.Lawful) (hfair : Fair S)
    (hrunning : ∀ n, (S.state n).writer.running = true) (n : ℕ) :
    ∃ m, n ≤ m ∧ (S.state n).answers.accepted <+: (S.state m).answers.taken := by
  have htakes : ∀ left m, n ≤ m →
      (S.state n).answers.accepted.length - (S.state m).answers.taken.length = left →
      ∃ m, n ≤ m ∧ (S.state n).answers.accepted <+: (S.state m).answers.taken := by
    intro left
    induction left using Nat.strong_induction_on with
    | _ left ih =>
      intro m hm hleft
      have haccepted := grows (S := S) hP (fun c => c.answers.accepted) (fun _ _ _ => accepted_step) hm
      by_cases hdone : (S.state n).answers.accepted.length ≤ (S.state m).answers.taken.length
      · exact ⟨m, hm, List.prefix_of_prefix_length_le haccepted (Mpsc.taken_accepted _) hdone⟩
      · have hqueue : (S.state m).answers.queue ≠ [] := by
          intro hempty
          have hlength := haccepted.length_le
          rw [Mpsc.accepted, Mpsc.accepted, hempty, List.append_nil] at hlength
          exact hdone hlength
        obtain ⟨m', hm', hmore⟩ := takes_answer hP hfair (fun n _ => hrunning n) hqueue
        have htaken := grows (S := S) hP (fun c => c.answers.taken) (fun _ _ _ => taken_step) hm'
        have hlonger : (S.state m).answers.taken.length < (S.state m').answers.taken.length := by
          apply lt_of_le_of_ne htaken.length_le
          intro hlength
          exact hmore (htaken.eq_of_length hlength).symm
        exact ih _ (by omega) m' (hm.trans hm') rfl
  exact htakes _ n (le_refl n) rfl

def isWriting {P : Proto} : WriteState P → Bool
  | .writing _ _ => true
  | _ => false

theorem finishes_frame (hP : C.proto.Lawful) (hfair : Fair S)
    (hrunning : ∀ n, (S.state n).writer.running = true) (n : ℕ) :
    ∃ m, n ≤ m ∧ isWriting (S.state m).writer.state = false := by
  have hstep : ∀ m action, n ≤ m → ¬ isWriting (S.state m).writer.state = false →
      State.step s (S.state m) action = some (S.state (m + 1)) →
      isWriting (S.state (m + 1)).writer.state = false ∨
        (untilTaking (S.state (m + 1)).writer.state ≤ untilTaking (S.state m).writer.state ∧
          (ofWriter action →
            untilTaking (S.state (m + 1)).writer.state < untilTaking (S.state m).writer.state)) := by
    intro m action hm hwriting hmoves
    have hlive := hrunning (m + 1)
    generalize S.state (m + 1) = d at hmoves hlive
    cases step_cases hP hmoves with
    | cancellationPolled count polling => simp [isWriting, polling] at hwriting
    | took count producer message answers polling popped => simp [isWriting, polling] at hwriting
    | idle count polling empty senders => simp [isWriting, polling] at hwriting
    | deserted count polling empty senders => simp [isWriting, polling] at hwriting
    | wrote count message pending writing =>
      rcases write_shrinks hlive with hpolls | ⟨rest, hrest, hle, hlt⟩
      · left
        rw [hpolls]
        rfl
      · right
        rw [hrest, writing]
        simp only [untilTaking, Prod.Lex.toLex_lt_toLex, Prod.Lex.toLex_le_toLex, lt_irrefl, false_or, true_and]
        refine ⟨hle, ?_⟩
        rintro ⟨count, hcount, ⟨⟩⟩
        exact hlt hcount
    | _ =>
      right
      refine ⟨le_refl _, ?_⟩
      rintro ⟨count, -, h⟩
      cases h
  apply S.reaches_of_rank (fun c => untilTaking c.writer.state)
    (fun c => isWriting c.writer.state = false) n ?_ ?_ (writes_often hfair (N := n) fun m _ => hrunning m)
  · intro m action hm hwriting hmoves
    exact (hstep m action hm hwriting hmoves).imp_right And.left
  · intro m action hm hwriting hmoves hwrite
    exact (hstep m action hm hwriting hmoves).imp_right fun h => h.2 hwrite

theorem polling_history {actions : List (Action C.proto)} (hhistory : History s e actions c)
    (hlive : c.writer.running = true) (hpolling : isWriting c.writer.state = false) :
    Quiet (taken c) ∧ Written C s.encrypted e.encryptCypher c.writer.wire (taken c) := by
  have hwriter := hhistory.writer
  unfold WriterHistory at hwriter
  cases hw : c.writer.state with
  | pollCancellation =>
    rw [hw] at hwriter
    exact ⟨hwriter.1, hwriter.2.choose, _, hwriter.2.choose_spec⟩
  | pollAnswers =>
    rw [hw] at hwriter
    exact ⟨hwriter.1, hwriter.2.choose, _, hwriter.2.choose_spec⟩
  | writing message pending => simp [isWriting, hw] at hpolling
  | stopped => simp [WriteLoop.running, hw] at hlive
  | panicked p => simp [WriteLoop.running, hw] at hlive

theorem polls_on (ht : Transition s c action d) (hempty : c.answers.queue = [])
    (h : isWriting c.writer.state = false) : isWriting d.writer.state = false := by
  cases ht with
  | cancellationPolled count polling =>
    unfold WriteLoop.pollCancellation
    cases c.reader.cancellation with
    | senderDropped => cases s.debugEnabled <;> rfl
    | _ => rfl
  | took count producer message answers polling popped =>
    rw [(Mpsc.pop_some popped).1] at hempty
    cases hempty
  | wrote count message pending writing => simp [isWriting, writing] at h
  | idle count polling empty senders => rfl
  | deserted count polling empty senders => rfl
  | _ => exact h

/-- Once nothing more is accepted, the wire comes to hold all of it and nothing else. -/
theorem writes_out (hC : C.Lawful) (h0 : S.state 0 = initial e) (hfair : Fair S)
    (hrunning : ∀ n, (S.state n).writer.running = true)
    (hsame : ∀ n, N ≤ n → (S.state n).answers.accepted = (S.state N).answers.accepted) :
    ∀ᶠ n in atTop, Written C s.encrypted e.encryptCypher (S.state n).writer.wire
      ((S.state N).answers.accepted.map Prod.snd) := by
  obtain ⟨M, hM, hall⟩ := takes_all hC.proto hfair hrunning N
  have htaken : ∀ n, M ≤ n → (S.state n).answers.taken = (S.state N).answers.accepted := by
    intro n hn
    have hmore := grows (S := S) hC.proto (fun c => c.answers.taken) (fun _ _ _ => taken_step) hn
    have hless := (S.state n).answers.taken_accepted
    rw [hsame n (hM.trans hn)] at hless
    exact hless.eq_of_length_le (hall.trans hmore).length_le
  have hempty : ∀ n, M ≤ n → (S.state n).answers.queue = [] := by
    intro n hn
    have haccepted := hsame n (hM.trans hn)
    rw [Mpsc.accepted, htaken n hn] at haccepted
    simpa using haccepted
  obtain ⟨K, hK, hpolling⟩ := finishes_frame hC.proto hfair hrunning M
  have hpolls : ∀ n, K ≤ n → isWriting (S.state n).writer.state = false := by
    apply S.always (fun c => isWriting c.writer.state = false) K hpolling
    intro n action hn ih hmoves
    exact polls_on (step_cases hC.proto hmoves) (hempty n (hK.trans hn)) ih
  apply eventually_atTop.mpr
  refine ⟨K, ?_⟩
  intro n hn
  obtain ⟨actions, -, hhistory⟩ := schedule_history hC.proto h0 n
  have hwritten := (polling_history hhistory (hrunning n) (hpolls n hn)).2
  rw [taken, htaken n (hK.trans hn)] at hwritten
  exact hwritten

theorem reads_all (hC : C.Lawful) (h0 : S.state 0 = initial e) (hfair : Fair S)
    (hholds : ∀ n, readerHoldsSender (S.state n).reader = true) :
    ∀ᶠ n in atTop, messages (S.state n).reader =
        carried C s.encrypted e.decryptCypher (e.src.data ++ e.incoming.flatten) ∧
      acceptedFrom (S.state n) .readLoop = answersDue s (S.state n).reader ∧
      (S.state n).reader.outgoing.sent = broadcastsDue s (S.state n).reader := by
  apply (settles hC.proto h0 hfair hholds).mono
  intro n hwaiting
  obtain ⟨actions, -, hhistory⟩ := schedule_history hC.proto h0 n
  have halive := not_panicked_reading hwaiting.reading
  have hrest := handled_rest hhistory.reader halive
  have hunread : parse s.encrypted (S.state n).reader.unread = .incomplete := by
    rw [ReadLoop.unread, hwaiting.incoming, List.flatten_nil, List.append_nil]
    exact hwaiting.incomplete
  rw [carried_incomplete hunread, List.append_nil] at hrest
  have howes := hhistory.owes
  rw [Owes, hwaiting.reading] at howes
  exact ⟨hrest.symm, howes.symm, hhistory.reader.broadcast.2 halive⟩

theorem serves (hC : C.Lawful) (h0 : S.state 0 = initial e) (hfair : Fair S)
    (hholds : ∀ n, readerHoldsSender (S.state n).reader = true)
    (hrunning : ∀ n, (S.state n).writer.running = true) :
    (∀ᶠ n in atTop, messages (S.state n).reader =
        carried C s.encrypted e.decryptCypher (e.src.data ++ e.incoming.flatten) ∧
      acceptedFrom (S.state n) .readLoop = answersDue s (S.state n).reader ∧
      (S.state n).reader.outgoing.sent = broadcastsDue s (S.state n).reader) ∧
    ∀ n, ∀ᶠ m in atTop, OnWire C s.encrypted e.encryptCypher (S.state m).writer.wire
      ((S.state n).answers.accepted.map Prod.snd) := by
  constructor
  · exact reads_all hC h0 hfair hholds
  · intro n
    obtain ⟨N, hN, htaken⟩ := takes_all hC.proto hfair hrunning n
    obtain ⟨M, hM, hpolling⟩ := finishes_frame hC.proto hfair hrunning N
    have htaken : (S.state n).answers.accepted.map Prod.snd <+: taken (S.state M) := by
      apply List.IsPrefix.map
      exact htaken.trans (grows (S := S) hC.proto (fun c => c.answers.taken) (fun _ _ _ => taken_step) hM)
    obtain ⟨actions, -, hhistory⟩ := schedule_history hC.proto h0 M
    obtain ⟨packets, k', hsealed, hwire⟩ := (polling_history hhistory (hrunning M) hpolling).2
    obtain ⟨fewer, k, hfewer, hframes⟩ := onWire_prefix hsealed htaken
    apply eventually_atTop.mpr
    refine ⟨M, ?_⟩
    intro m hm
    refine ⟨fewer, k, hfewer, ?_⟩
    rw [← hwire] at hframes
    exact hframes.trans (grows (S := S) hC.proto (fun c => c.writer.wire) (fun _ _ _ => wire_step) hm)

/-- Once the client has ended its stream, the connection comes to an end as well, whatever
the client sent and whatever the application does. -/
theorem loops_end (C : Crates) (hC : C.Lawful) (s : Session) (e : Established C) (hs : s.streamEnds = true)
    (S : Schedule (State.step (C := C) s)) (h0 : S.state 0 = initial e) (hfair : Fair S) :
    ∃ N, ∀ n, N ≤ n → readerHoldsSender (S.state n).reader = false ∧ (S.state n).writer.running = false := by
  have hreader : ∃ n, readerHoldsSender (S.state n).reader = false := by
    by_contra hnever
    have hholds : ∀ n, readerHoldsSender (S.state n).reader = true := by
      intro n
      by_contra hreleased
      exact hnever ⟨n, Bool.eq_false_iff.mpr hreleased⟩
    obtain ⟨n, hwaiting⟩ := (settles hC.proto h0 hfair hholds).exists
    cases hs.symm.trans hwaiting.unended
  obtain ⟨N, hN⟩ := hreader
  have hreleased : ∀ n, N ≤ n → readerHoldsSender (S.state n).reader = false := by
    apply S.always (fun c => readerHoldsSender c.reader = false) N hN
    intro n action hn ih hmoves
    exact released_step ih (step_cases hC.proto hmoves)
  obtain ⟨M, hM, hended⟩ := writer_ends hC.proto h0 hfair hreleased
  refine ⟨M, ?_⟩
  intro n hn
  refine ⟨hreleased n (hM.trans hn), ?_⟩
  apply S.always (fun c => c.writer.running = false) M hended ?_ n hn
  intro k action hk ih hmoves
  rw [(ended_frame ih (step_cases hC.proto hmoves)).1]
  exact ih

theorem released_disabled (h : readerHoldsSender c.reader = false) : ¬ Enabled (State.step s) ofReader c := by
  rintro ⟨action, rfl, hsome⟩
  unfold readerHoldsSender at h
  split at h
  · rename_i hr
    simp [State.step, State.readStep, hr] at hsome
  · rename_i p hr
    simp [State.step, State.readStep, hr] at hsome
  · cases h

theorem ended_disabled (h : c.writer.running = false) : ¬ Enabled (State.step s) ofWriter c := by
  rintro ⟨action, ⟨count, -, rfl⟩, hsome⟩
  unfold WriteLoop.running at h
  split at h
  · rename_i hw
    simp [State.step, State.writeStep, hw] at hsome
  · rename_i p hw
    simp [State.step, State.writeStep, hw] at hsome
  · cases h

theorem loops_end_ping_then_end :
    ∃ S : Schedule (State.step (C := tagCrates) ⟨testDevice, false, true, false⟩),
      S.state 0 = initial (plaintextStart [[0, 0, 7]]) ∧ Fair S ∧
      ∃ N, ∀ n, N ≤ n → readerHoldsSender (S.state n).reader = false ∧ (S.state n).writer.running = false := by
  obtain ⟨c, hrun, hended⟩ : ∃ c, run (State.step ⟨testDevice, false, true, false⟩)
      (initial (plaintextStart [[0, 0, 7]])) [.read, .read, .read, .read, .read, .write 1] = some c ∧
      (readerHoldsSender c.reader = false ∧ c.writer.running = false) := run_check (by decide +kernel)
  obtain ⟨S, h0, hends, -⟩ := (Schedule.rest c).exists_prepend hrun
  have hfair : Fair S :=
    ⟨hends.stronglyFair (Schedule.stronglyFair_of_disabled _ fun _ => released_disabled hended.1),
      hends.weaklyFair (Schedule.weaklyFair_of_disabled _ fun _ => ended_disabled hended.2)⟩
  exact ⟨S, h0, hfair, loops_end tagCrates tagCrates_lawful ⟨testDevice, false, true, false⟩ _ rfl S h0 hfair⟩

theorem unended (hreading : Reading s received c.reader) (hs : s.streamEnds = false) :
    c.reader.cancellation ≠ .sent "read loop finished" := by
  intro hsent
  cases hs.symm.trans (hreading.ended hsent).1

theorem keeps_reading {actions : List (Action C.proto)} (hreading : Reading s received c.reader)
    (hhistory : History s e actions c) (hs : s.streamEnds = false) : readerHoldsSender c.reader = true := by
  have hsignals := hhistory.signals
  cases hr : c.reader.state with
  | stopped =>
    rw [Signals, hr] at hsignals
    exact absurd hsignals (unended hreading hs)
  | panicked p => exact absurd ⟨p, hr⟩ hreading.alive
  | _ => simp only [readerHoldsSender, hr]

/-- Nothing ends the loops while the client and the application stay. -/
theorem keeps_running {a : Application C.proto} {actions : List (Action C.proto)}
    (hsafe : Safe s a received c) (hhistory : History s e actions c)
    (hs : s.streamEnds = false) (hstays : ∀ message ∈ received, isDisconnectRequest message = false)
    (hstays' : ∀ message, a.sends message → isDisconnectResponse message = false) :
    readerHoldsSender c.reader = true ∧ c.writer.running = true := by
  refine ⟨keeps_reading hsafe.reader hhistory hs, ?_⟩
  cases hw : c.writer.state with
  | stopped =>
    rcases hsafe.stopped hw with hsent | ⟨message, hm, hd⟩
    · exact absurd hsent (unended hsafe.reader hs)
    · obtain ⟨⟨producer, message⟩, hentry, rfl⟩ := List.mem_map.mp hm
      have haccepted := c.answers.taken_accepted.subset hentry
      cases producer with
      | application task =>
        rw [hstays' message (hsafe.sends task message haccepted)] at hd
        cases hd
      | readLoop =>
        have hdue := (owes_due hhistory.owes).subset (mem_acceptedFrom haccepted)
        obtain ⟨request, hrequest, hanswer⟩ := mem_filterMap_answer hdue
        have hkind := dispatch_disconnect s.api hanswer
        have hstayed := hstays request (handled_received hsafe.reader hrequest)
        simp only [isDisconnectResponse, isDisconnectRequest, decide_eq_true_eq, decide_eq_false_iff_not]
          at hd hstayed
        exact absurd (hkind.mp hd) hstayed
  | panicked p => exact absurd hw (hsafe.writer p)
  | _ => simp only [WriteLoop.running, hw]

/-- A client that sends whole messages and stays, and an application that crashes nothing:
every message is handled, and whatever is accepted for the client gets onto the wire. -/
theorem serves_all (C : Crates) (hC : C.Lawful) (api : EspHomeApi) (chunks : List Bytes)
    (outcome : StartRun C) (e : Established C) (hstart : start C api chunks = .ok outcome)
    (he : outcome.result = .ok e) (debugEnabled : Bool) (received : List (ProtoMessage C.proto))
    (ht : Traffic C e.encrypted e.decryptCypher (e.src.data ++ e.incoming.flatten) received)
    (hstays : ∀ message ∈ received, isDisconnectRequest message = false) (a : Application C.proto)
    (hstays' : ∀ message, a.sends message → isDisconnectResponse message = false)
    (hfree : CrashFree ⟨api, e.encrypted, false, debugEnabled⟩ e a)
    (S : Schedule (State.step (C := C) ⟨api, e.encrypted, false, debugEnabled⟩)) (h0 : S.state 0 = initial e)
    (hallowed : ∀ n action, S.action n = some action → a.Allows action) (hfair : Fair S) :
    (∀ᶠ n in atTop, messages (S.state n).reader = received ∧
      acceptedFrom (S.state n) .readLoop = received.filterMap (fun message => (api.dispatch message).answer?) ∧
      (S.state n).reader.outgoing.sent = received.filterMap fun message => (api.dispatch message).forward?) ∧
    ∀ n, ∀ᶠ m in atTop, OnWire C e.encrypted e.encryptCypher (S.state m).writer.wire
      ((S.state n).answers.accepted.map Prod.snd) := by
  have hk := established_keyed hC hstart he
  have hh := harmless_of_crash_free (s := ⟨api, e.encrypted, false, debugEnabled⟩) hC hk ht hfree
  have hkeeps : ∀ n, readerHoldsSender (S.state n).reader = true ∧ (S.state n).writer.running = true := by
    intro n
    obtain ⟨hsafe, actions, hhistory⟩ := safe_run hC hk ht hh (schedule_reached h0 hallowed n)
    exact keeps_running hsafe hhistory rfl hstays hstays'
  obtain ⟨hsettled, hwritten⟩ := serves hC h0 hfair (fun n => (hkeeps n).1) fun n => (hkeeps n).2
  refine ⟨?_, hwritten⟩
  apply hsettled.mono
  rintro n ⟨hmessages, hanswers, hbroadcasts⟩
  rw [answersDue, hmessages, traffic_carried ht] at hanswers
  rw [broadcastsDue, hmessages, traffic_carried ht] at hbroadcasts
  exact ⟨hmessages.trans (traffic_carried ht), hanswers, hbroadcasts⟩

def isIdle (s : Session) (c : State C) : Bool :=
  match c.reader.state, c.writer.state, c.reader.cancellation, c.answers.queue with
  | .reading, .pollCancellation, .waiting, [] => (c.reader.read s c.receiverAlive).isNone
  | _, _, _, _ => false

theorem idle_polls (h : isIdle s c = true) :
    ∃ polled, State.step s c (.write 1) = some polled ∧ State.step s polled (.write 1) = some c ∧
      polled.reader = c.reader ∧ polled.receiverAlive = c.receiverAlive := by
  unfold isIdle at h
  split at h <;> try cases h
  rename_i hr hw hcancel hq
  refine ⟨{ c with writer := { c.writer with state := .pollAnswers } }, ?_, ?_, rfl, rfl⟩
  · simp [State.step, State.writeStep, hw, WriteLoop.pollCancellation, hcancel]
  · have hsame : ({ c with writer := { c.writer with state := .pollCancellation } } : State C) = c := by
      rw [← hw]
    have hpop : c.answers.pop = none := by rw [Mpsc.pop, hq]
    simp [State.step, State.writeStep, State.recv, hpop, readerHoldsSender, hr, hsame]

theorem idle_unread (h : isIdle s c = true) (hreader : d.reader = c.reader)
    (hreceiver : d.receiverAlive = c.receiverAlive) : State.step s d .read = none := by
  unfold isIdle at h
  split at h <;> try cases h
  rename_i hr hw hcancel hq
  have hread : c.reader.read s c.receiverAlive = none := Option.isNone_iff_eq_none.mp h
  simp [State.step, State.readStep, hreader, hreceiver, hr, hread]

theorem idles (h : isIdle s c = true) :
    ∃ S : Schedule (State.step (C := C) s), S.state 0 = c ∧ Fair S ∧
      ∀ n action, S.action n = some action → action = .write 1 := by
  obtain ⟨polled, hout, hback, hreader, hreceiver⟩ := idle_polls h
  obtain ⟨S, h0, htakes, hdisabled, hactions⟩ := Schedule.exists_alternating hout hback
  refine ⟨S, h0, ⟨(hdisabled ofReader ?_ ?_).1, ?_⟩, fun n action haction => (hactions n action haction).elim id id⟩
  · rintro ⟨action, rfl, hsome⟩
    simp [idle_unread h rfl rfl] at hsome
  · rintro ⟨action, rfl, hsome⟩
    simp [idle_unread h hreader hreceiver] at hsome
  · exact htakes ofWriter ⟨1, one_pos, rfl⟩ ⟨1, one_pos, rfl⟩

theorem serves_all_ping :
    ∃ outcome e, ∃ S : Schedule (State.step (C := tagCrates) ⟨testDevice, false, false, false⟩),
      start tagCrates testDevice [[0, 0, 7]] = .ok outcome ∧ outcome.result = .ok e ∧
      S.state 0 = initial e ∧ Fair S ∧
      ∀ᶠ n in atTop, acceptedFrom (S.state n) .readLoop = [⟨.pingResponse, []⟩] := by
  have ht : Traffic tagCrates false none [0, 0, 7] [⟨.pingRequest, []⟩] := traffic_emptyFrame 7 [] rfl (.done _)
  have hh : Harmless (C := tagCrates) ⟨testDevice, false, false, false⟩ ⟨fun _ => False, false, false⟩
      [⟨.pingRequest, []⟩] := by
    refine ⟨.cons (List.forall_mem_nil _) .nil, fun _ h => h.elim, fun _ h => h.elim, ?_, by simp, by simp⟩
    refine List.forall_mem_cons.mpr ⟨?_, List.forall_mem_nil _⟩
    rintro response ⟨⟩
    exact emptyMessage_encodable .pingResponse
  have hfree : CrashFree ⟨testDevice, false, false, false⟩ (plaintextStart [[0, 0, 7]])
      ⟨fun _ => False, false, false⟩ := crash_free_of_harmless tagCrates_lawful (by simp) ht hh
  obtain ⟨c, hrun, hidle⟩ : ∃ c, run (State.step ⟨testDevice, false, false, false⟩)
      (initial (plaintextStart [[0, 0, 7]]))
      [.read, .read, .read, .write 1, .write 1, .write 1, .write 1, .write 1] = some c ∧
      isIdle ⟨testDevice, false, false, false⟩ c = true := run_check (by decide +kernel)
  obtain ⟨T, rfl, hfair, hactions⟩ := idles hidle
  obtain ⟨S, h0, hends, hfrom⟩ := T.exists_prepend hrun
  have hfair : Fair S := ⟨hends.stronglyFair hfair.reads, hends.weaklyFair hfair.writes⟩
  refine ⟨_, _, S, rfl, rfl, h0, hfair, ?_⟩
  refine (serves_all tagCrates tagCrates_lawful testDevice [[0, 0, 7]] _ _ rfl rfl false [⟨.pingRequest, []⟩] ht
    (by simp [isDisconnectRequest]) ⟨fun _ => False, false, false⟩ (fun _ h => h.elim) hfree S h0 ?_ hfair).1.mono
    fun n hn => hn.2.1
  intro n action haction
  rcases hfrom n action haction with hm | ⟨m, hm⟩
  · simp only [List.mem_cons, List.not_mem_nil, or_false] at hm
    rcases hm with rfl | rfl | rfl | rfl | rfl | rfl | rfl | rfl <;> trivial
  · rw [hactions m action hm]
    trivial

end Schedules

end EsphomeNativeApi.Liveness
