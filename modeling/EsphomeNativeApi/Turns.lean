import EsphomeNativeApi.Delivery
import EsphomeNativeApi.Progress

/-!
What each turn of a loop brings nearer: of the read loop the end of its work, of the write
loop the next answer or its own end.
-/

namespace EsphomeNativeApi.Turns

open RustSemantics MessageTable Frames FrameFormat FrameEncoding PacketEncrypted Api Start Channels Runs
open ReadLoops WriteLoops ClientTraffic Connection ReadHistories Histories Safety Progress Delivery

variable {C : Crates} {s : Session} {c d : State C} {action : Action C.proto}

section Reader

theorem isFrame_length {encrypted : Bool} {w frame : Bytes} (h : IsFrame encrypted w frame) : 3 ≤ w.length := by
  cases h with
  | plaintext marker frame terminated short length =>
    have hmarker : 0 < marker.length := by
      apply List.length_pos_of_ne_nil
      rintro rfl
      exact terminated
    simp only [List.length_cons, List.length_append]
    omega
  | encrypted hi lo frame length => simp

def stage : ReadState C.proto → ℕ
  | .answering _ => 3
  | .reading => 2
  | .stopping => 1
  | .stopped | .panicked _ => 0

/-- How many steps the read loop can still take, at most: a frame takes two of them, to
handle it and to answer it, and three bytes. -/
def readWork (r : ReadLoop C) : ℕ := r.incoming.length + 2 * (r.unread.length / 3) + stage r.state

theorem stage_le (state : ReadState C.proto) : stage state ≤ 3 := by
  cases state <;> simp [stage]

theorem dispatched_unread (receiverAlive : Bool) (r : ReadLoop C) (message : ProtoMessage C.proto) :
    (r.dispatched s receiverAlive message).unread = r.unread ∧
      (r.dispatched s receiverAlive message).incoming = r.incoming := by
  unfold ReadLoop.dispatched
  cases s.api.dispatch message with
  | forward m => cases receiverAlive <;> exact ⟨rfl, rfl⟩
  | _ => exact ⟨rfl, rfl⟩

theorem handle_unread (receiverAlive : Bool) (r : ReadLoop C) (frame : Bytes) :
    (r.handle s receiverAlive frame).unread = r.unread ∧
      (r.handle s receiverAlive frame).incoming = r.incoming := by
  unfold ReadLoop.handle
  split
  · exact ⟨rfl, rfl⟩
  · exact dispatched_unread receiverAlive _ _

theorem work_reads {r t : ReadLoop C} {receiverAlive : Bool} (hr : r.state = .reading)
    (h : r.Reads s receiverAlive t) : readWork t < readWork r := by
  cases h with
  | frame src frame parsed =>
    obtain ⟨w, hw, hsplit⟩ := isFrame_of_parse parsed
    have hlength := isFrame_length hw
    obtain ⟨hunread, hincoming⟩ := handle_unread (s := s) receiverAlive { r with src := src } frame
    have hshorter : ({ r with src := src } : ReadLoop C).unread.length + 3 ≤ r.unread.length := by
      rw [ReadLoop.unread, ReadLoop.unread, hsplit]
      simp only [List.length_append]
      omega
    have hstage := stage_le (({ r with src := src } : ReadLoop C).handle s receiverAlive frame).state
    have hreading : stage r.state = 2 := by rw [hr]; rfl
    rw [readWork, readWork, hunread, hincoming, hreading]
    change r.incoming.length + _ + _ < _
    omega
  | chunk src chunk chunks parsed next appended =>
    rw [readWork, readWork, ReadLoop.unread_chunk next appended, next]
    simp only [List.length_cons]
    omega
  | finished src empty ended kept =>
    rw [readWork, readWork, ReadLoop.unread_finish kept, hr]
    simp [stage, ReadLoop.finish]
  | broken src reason kept =>
    have hunread : (({ r with src := src } : ReadLoop C).panic .unwrapErr).unread = r.unread := by
      rw [ReadLoop.unread, ReadLoop.panic, kept, ReadLoop.unread]
    rw [readWork, readWork, hunread, hr]
    simp [stage, ReadLoop.panic]

theorem work_step (ht : Transition s c action d) :
    readWork d.reader ≤ readWork c.reader ∧ (action = .read → readWork d.reader < readWork c.reader) := by
  cases ht with
  | polled reader reading reads =>
    have hless := work_reads reading reads
    exact ⟨hless.le, fun _ => hless⟩
  | answered response answering running room => simp [readWork, answering, stage, ReadLoop.unread]
  | refused response answering ended =>
    simp [readWork, answering, stage, ReadLoop.unread, ReadLoop.panic]
  | finished stopping => simp [readWork, stopping, stage, ReadLoop.unread]
  | _ => exact ⟨le_refl _, fun h => by cases h⟩

end Reader

section Writer

/-- How far the write loop is from taking an answer out of the queue, -/
def untilTaking : WriteState C.proto → ℕ ×ₗ ℕ
  | .writing _ pending => toLex (2, pending.length)
  | .pollCancellation => toLex (1, 0)
  | _ => toLex (0, 0)

/-- and how far it is from hearing of its cancellation. -/
def untilEnding : WriteState C.proto → ℕ ×ₗ ℕ
  | .pollAnswers => toLex (2, 0)
  | .writing _ pending => toLex (1, pending.length)
  | _ => toLex (0, 0)

theorem write_shrinks {w : WriteLoop C} {count : ℕ} {message : ProtoMessage C.proto} {pending : Bytes}
    (hrunning : (w.write count message pending).running = true) :
    (w.write count message pending).state = .pollCancellation ∨
      ∃ rest : Bytes, (w.write count message pending).state = .writing message rest ∧
        rest.length ≤ pending.length ∧ (0 < count → rest.length < pending.length) := by
  unfold WriteLoop.write at hrunning ⊢
  split_ifs at hrunning ⊢ with hall hlast
  · cases hrunning
  · exact .inl rfl
  · refine .inr ⟨pending.drop count, rfl, ?_, ?_⟩
    · rw [List.length_drop]
      omega
    · intro hcount
      rw [List.length_drop]
      omega

theorem taking_step (ht : Transition s c action d) (hrunning : d.writer.running = true)
    (hqueue : c.answers.queue ≠ []) (htaken : d.answers.taken = c.answers.taken) :
    untilTaking d.writer.state ≤ untilTaking c.writer.state ∧
      ∀ count, 0 < count → action = .write count →
        untilTaking d.writer.state < untilTaking c.writer.state := by
  cases ht with
  | cancellationPolled count polling =>
    have hless : untilTaking (c.writer.pollCancellation s c.reader.cancellation).state <
        untilTaking c.writer.state := by
      rw [polling]
      cases hcancel : c.reader.cancellation with
      | waiting => simp [WriteLoop.pollCancellation, untilTaking, Prod.Lex.toLex_lt_toLex]
      | sent reason => simp [WriteLoop.pollCancellation, WriteLoop.running, hcancel] at hrunning
      | senderDropped =>
        cases hdebug : s.debugEnabled <;>
          simp [WriteLoop.pollCancellation, WriteLoop.running, hcancel, hdebug] at hrunning
    exact ⟨hless.le, fun _ _ _ => hless⟩
  | took count producer message answers polling popped =>
    have hlength := congrArg List.length ((Mpsc.pop_some popped).2.1.symm.trans htaken)
    simp at hlength
  | idle count polling empty senders => exact absurd empty hqueue
  | deserted count polling empty senders => exact absurd empty hqueue
  | wrote count message pending writing =>
    rcases write_shrinks hrunning with hpolls | ⟨rest, hrest, hle, hlt⟩
    · rw [hpolls, writing]
      simp [untilTaking, Prod.Lex.toLex_lt_toLex, Prod.Lex.toLex_le_toLex]
    · rw [hrest, writing]
      simp only [untilTaking, Prod.Lex.toLex_lt_toLex, Prod.Lex.toLex_le_toLex, lt_irrefl, false_or, true_and]
      refine ⟨hle, ?_⟩
      rintro count hcount ⟨⟩
      exact hlt hcount
  | _ => exact ⟨le_refl _, fun _ _ h => by cases h⟩

theorem ending_step (ht : Transition s c action d) (hrunning : d.writer.running = true)
    (hcancel : c.reader.cancellation ≠ .waiting) :
    untilEnding d.writer.state ≤ untilEnding c.writer.state ∧
      ∀ count, 0 < count → action = .write count →
        untilEnding d.writer.state < untilEnding c.writer.state := by
  cases ht with
  | cancellationPolled count polling =>
    cases h : c.reader.cancellation with
    | waiting => exact absurd h hcancel
    | sent reason => simp [WriteLoop.pollCancellation, WriteLoop.running, h] at hrunning
    | senderDropped =>
      cases hdebug : s.debugEnabled <;>
        simp [WriteLoop.pollCancellation, WriteLoop.running, h, hdebug] at hrunning
  | took count producer message answers polling popped =>
    have hless : untilEnding (c.writer.answer s message).state < untilEnding c.writer.state := by
      rw [polling]
      simp only [WriteLoop.answer] at hrunning ⊢
      split at hrunning
      · cases hrunning
      · simp [untilEnding, Prod.Lex.toLex_lt_toLex]
    exact ⟨hless.le, fun _ _ _ => hless⟩
  | idle count polling empty senders =>
    simp [untilEnding, polling, Prod.Lex.toLex_lt_toLex, Prod.Lex.toLex_le_toLex]
  | deserted count polling empty senders => cases hrunning
  | wrote count message pending writing =>
    rcases write_shrinks hrunning with hpolls | ⟨rest, hrest, hle, hlt⟩
    · rw [hpolls, writing]
      simp [untilEnding, Prod.Lex.toLex_lt_toLex, Prod.Lex.toLex_le_toLex]
    · rw [hrest, writing]
      simp only [untilEnding, Prod.Lex.toLex_lt_toLex, Prod.Lex.toLex_le_toLex, lt_irrefl, false_or, true_and]
      refine ⟨hle, ?_⟩
      rintro count hcount ⟨⟩
      exact hlt hcount
  | _ => exact ⟨le_refl _, fun _ _ h => by cases h⟩

end Writer

theorem reader_kept (ht : Transition s c action d) (h : action ≠ .read) :
    d.reader.state = c.reader.state := by
  cases ht with
  | polled reader reading reads => exact absurd rfl h
  | answered response answering running room => exact absurd rfl h
  | refused response answering ended => exact absurd rfl h
  | finished stopping => exact absurd rfl h
  | _ => rfl

theorem accepted_step (ht : Transition s c action d) : c.answers.accepted <+: d.answers.accepted := by
  cases ht with
  | answered response answering running room =>
    rw [Mpsc.accepted_push]
    exact List.prefix_append _ _
  | took count producer message answers polling popped => rw [(Mpsc.pop_some popped).2.2]
  | sent task message alive running room =>
    rw [Mpsc.accepted_push]
    exact List.prefix_append _ _
  | _ => exact List.prefix_refl _

theorem taken_step (ht : Transition s c action d) : c.answers.taken <+: d.answers.taken := by
  cases ht with
  | took count producer message answers polling popped =>
    rw [(Mpsc.pop_some popped).2.1]
    exact List.prefix_append _ _
  | _ => exact List.prefix_refl _

theorem released_step (h : readerHoldsSender c.reader = false) (ht : Transition s c action d) :
    readerHoldsSender d.reader = false := by
  unfold readerHoldsSender at h
  cases ht with
  | polled reader reading reads => simp [reading] at h
  | answered response answering running room => simp [answering] at h
  | refused response answering ended => simp [answering] at h
  | finished stopping => simp [stopping] at h
  | _ => exact h

/-- What only a receive does to the channel, and how little else. -/
theorem unreceived_step (ht : Transition s c action d) (h : action ≠ .receive) :
    d.reader.outgoing.received = c.reader.outgoing.received ∧
      d.reader.outgoing.cursor = c.reader.outgoing.cursor ∧
      c.reader.outgoing.sent <+: d.reader.outgoing.sent ∧
      d.reader.outgoing.sent.length ≤ c.reader.outgoing.sent.length + 1 := by
  rcases outgoing_cases ht with ⟨hreceive, -⟩ | ⟨-, hsame | ⟨-, hsame | ⟨message, hsame⟩⟩⟩
  · exact absurd hreceive h
  · rw [hsame]
    exact ⟨rfl, rfl, List.prefix_refl _, Nat.le_succ _⟩
  · rw [hsame]
    exact ⟨rfl, rfl, List.prefix_refl _, Nat.le_succ _⟩
  · rw [hsame, Broadcast.send_sent, List.length_append, List.length_singleton]
    exact ⟨rfl, rfl, List.prefix_append _ _, le_refl _⟩

theorem loops_cursor (hP : C.proto.Lawful) (h : LoopsReach s c d) :
    d.reader.outgoing.cursor = c.reader.outgoing.cursor := by
  obtain ⟨actions, hloops, hrun⟩ := h
  apply run_invariant (fun u : State C => u.reader.outgoing.cursor = c.reader.outgoing.cursor) hrun rfl
  intro action hm u v hu hv
  rw [← hu]
  refine (unreceived_step (step_cases hP hv) ?_).2.1
  rintro rfl
  cases hloops _ hm

theorem broadcast_prefix {e : Established C} {received : List (ProtoMessage C.proto)}
    {actions : List (Action C.proto)}
    (hreading : Reading s received c.reader) (hhistory : History s e actions c) :
    c.reader.outgoing.sent <+: received.filterMap fun message => (s.api.dispatch message).forward? := by
  obtain ⟨rest, -, hsplit⟩ := hreading.rest
  rw [hsplit, List.filterMap_append]
  exact hhistory.reader.broadcast.1.trans (List.prefix_append _ _)

theorem receive_enabled {c : State C} {result : Received (ProtoMessage C.proto)}
    {outgoing : Broadcast (ProtoMessage C.proto)} (halive : c.receiverAlive = true)
    (hnext : c.reader.outgoing.receive capacity (readerHoldsSender c.reader) = some (result, outgoing)) :
    State.step s c .receive = some { c with reader := { c.reader with outgoing := outgoing } } := by
  rw [State.step, if_pos halive, hnext]
  rfl

theorem handle_handled (receiverAlive : Bool) (r : ReadLoop C) (frame : Bytes) :
    r.handled <+: (r.handle s receiverAlive frame).handled := by
  unfold ReadLoop.handle
  split
  · exact List.prefix_refl _
  · unfold ReadLoop.dispatched
    split
    · exact List.prefix_append _ _
    · exact List.prefix_append _ _
    · cases receiverAlive <;> exact List.prefix_append _ _

theorem messages_step (ht : Transition s c action d) : messages c.reader <+: messages d.reader := by
  cases ht with
  | polled reader reading reads =>
    apply List.IsPrefix.map
    cases reads with
    | frame src frame parsed => exact handle_handled c.receiverAlive { c.reader with src := src } frame
    | _ => exact List.prefix_refl _
  | _ => exact List.prefix_refl _

end EsphomeNativeApi.Turns
