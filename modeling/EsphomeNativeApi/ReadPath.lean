import EsphomeNativeApi.ClientTraffic
import EsphomeNativeApi.Connection

/-!
The read loop of a plaintext connection on its own: the answer queue takes every answer,
and the application keeps its receiver.
-/

namespace EsphomeNativeApi.ReadPath

open RustSemantics MessageTable Frames FrameFormat Framing PacketEncrypted Api Start Channels Runs ReadLoops
open ClientTraffic Connection

variable {C : Crates}

def advance (s : Session) (r : ReadLoop C) (_ : Unit) : Option (ReadLoop C) :=
  match r.state with
  | .reading => r.read s true
  | .answering _ => some { r with state := .reading }
  | .stopping => some { r with state := .stopped }
  | .stopped => none
  | .panicked _ => none

def session (api : EspHomeApi) (debugEnabled : Bool) : Session := ⟨api, false, true, debugEnabled⟩

/-- No `unwrap` or index fails, the loop goes on until it ends, and it ends after
cancelling the write loop. -/
def Survives (s : Session) (r : ReadLoop C) : Prop :=
  ∀ polls t, run (advance s) r polls = some t →
    (∀ p, t.state ≠ .panicked p) ∧
    (t.state = .stopped → t.cancellation = .sent "read loop finished") ∧
    (t.state = .stopped ∨ ∃ u, advance s t () = some u)

theorem Survives.advance {s : Session} {r t : ReadLoop C} (h : Survives s r)
    (ht : advance s r () = some t) : Survives s t := fun polls u hu =>
  h (() :: polls) u ((run_cons_iff () polls).mpr ⟨t, ht, hu⟩)

theorem not_survives_panic {s : Session} {r : ReadLoop C} {p : Panic} : ¬ Survives s (r.panic p) :=
  fun h => (h [] _ rfl).1 p rfl

section Connected

variable {s : Session} {c d : State C}

/-- The read loop has all that it asks of the rest of the connection. -/
structure Served (c : State C) : Prop where
  running : c.writer.running = true
  room : c.hasRoom = true
  alive : c.receiverAlive = true

theorem Served.readStep (h : Served c) : (c.readStep s).map State.reader = advance s c.reader () := by
  unfold State.readStep ReadPath.advance
  cases c.reader.state with
  | reading =>
    simp only [h.alive, Option.map_map]
    exact congrFun Option.map_id _
  | answering response => simp only [h.running, h.room, ↓reduceIte, Option.map_some]
  | _ => rfl

theorem Served.step (hP : C.proto.Lawful) (h : Served c) {action : Action C.proto} (hother : action ≠ .receive)
    (hstep : c.step s action = some d) : ∃ polls, run (advance s) c.reader polls = some d.reader := by
  by_cases hread : action = .read
  · subst hread
    have hreader := h.readStep (s := s)
    rw [show c.readStep s = some d from hstep] at hreader
    exact ⟨[()], (run_cons_iff () []).mpr ⟨d.reader, hreader.symm, rfl⟩⟩
  · have hkept : d.reader = c.reader := by
      cases step_cases hP hstep with
      | polled reader reading reads => exact absurd rfl hread
      | answered response answering running room => exact absurd rfl hread
      | refused response answering ended => exact absurd rfl hread
      | finished stopping => exact absurd rfl hread
      | received result outgoing alive next => exact absurd rfl hother
      | _ => rfl
    exact ⟨[], by rw [hkept]; rfl⟩

/-- As long as it is served, the read loop of a connection does what it does on its own. -/
theorem run_served (hP : C.proto.Lawful) {actions : List (Action C.proto)}
    (h : run (State.step s) c actions = some d) (hother : ∀ action ∈ actions, action ≠ .receive)
    (hserved : ∀ before u, before <+: actions → run (State.step s) c before = some u → Served u) :
    ∃ polls, run (advance s) c.reader polls = some d.reader := by
  induction actions using List.reverseRecOn generalizing d with
  | nil =>
    cases h
    exact ⟨[], rfl⟩
  | append_singleton past action ih =>
    obtain ⟨u, hu, hlast⟩ := (run_append_iff past [action]).mp h
    obtain ⟨v, hv, hlast⟩ := (run_cons_iff action []).mp hlast
    cases hlast
    obtain ⟨polls, hpast⟩ := ih hu (fun b hb => hother b (List.mem_append_left _ hb))
      fun before w hbefore => hserved before w (hbefore.trans (List.prefix_append _ _))
    have hlast := hserved past u (List.prefix_append _ _) hu
    obtain ⟨more, hmore⟩ := hlast.step hP (hother action (by simp)) hv
    exact ⟨polls ++ more, (run_append_iff polls more).mpr ⟨u.reader, hpast, hmore⟩⟩

theorem Survives.connection (hP : C.proto.Lawful) (h : Survives s c.reader) {actions : List (Action C.proto)}
    (hrun : run (State.step s) c actions = some d) (hother : ∀ action ∈ actions, action ≠ .receive)
    (hserved : ∀ before u, before <+: actions → run (State.step s) c before = some u → Served u) (p : Panic) :
    d.reader.state ≠ .panicked p := by
  obtain ⟨polls, hpolls⟩ := run_served hP hrun hother hserved
  exact (h polls _ hpolls).1 p

end Connected

def Sound (r : ReadLoop C) : Prop :=
  match r.state with
  | .reading | .answering _ => ∃ messages, Traffic C false r.decryptCypher r.unread messages
  | .stopping | .stopped => r.cancellation = .sent "read loop finished"
  | .panicked _ => False

theorem dispatched_sound {s : Session} {r : ReadLoop C} (hr : r.state = .reading)
    {messages : List (ProtoMessage C.proto)} (ht : Traffic C false r.decryptCypher r.unread messages)
    (message : ProtoMessage C.proto) : Sound (r.dispatched s true message) := by
  unfold ReadLoop.dispatched
  cases s.api.dispatch message with
  | answer response => exact ⟨messages, ht⟩
  | ignore => rw [Sound, hr]; exact ⟨messages, ht⟩
  | forward m => simp only [ReadLoop.broadcast, ↓reduceIte, Sound, hr]; exact ⟨messages, ht⟩

theorem reads_sound {s : Session} (hs : s.encrypted = false) {r t : ReadLoop C} (hr : r.state = .reading)
    (h : Sound r) (hread : r.Reads s true t) : Sound t := by
  rw [Sound, hr] at h
  obtain ⟨messages, ht⟩ := h
  cases hread with
  | frame src frame parsed =>
    rw [hs] at parsed
    obtain ⟨message, k, more, -, hc, hmore⟩ := traffic_frame ht parsed
    rw [handle_carries (r := { r with src := src }) (hs ▸ hc)]
    exact dispatched_sound (r := ({ r with src := src } : ReadLoop C).opened frame message k) hr hmore message
  | chunk src chunk chunks parsed next appended =>
    rw [← ReadLoop.unread_chunk next appended] at ht
    rw [Sound, hr]
    exact ⟨messages, ht⟩
  | finished src empty ended kept => rfl
  | broken src reason kept =>
    rcases reason with ⟨e, hp⟩ | ⟨hp, hi, -, hne⟩
    · exact absurd (hs ▸ hp) (traffic_not_fail ht e)
    · rw [ReadLoop.unread, hi, List.flatten_nil, List.append_nil] at ht
      exact absurd (traffic_incomplete ht (hs ▸ hp)) hne

theorem advance_sound {s : Session} (hP : C.proto.Lawful) (hs : s.encrypted = false) {r t : ReadLoop C}
    (h : Sound r) (ht : advance s r () = some t) : Sound t := by
  unfold advance at ht
  cases hr : r.state with
  | reading =>
    rw [hr] at ht
    exact reads_sound hs hr h (ReadLoop.read_cases hP ht)
  | answering response =>
    rw [hr] at ht
    cases ht
    rw [Sound, hr] at h
    exact h
  | stopping =>
    rw [hr] at ht
    cases ht
    rw [Sound, hr] at h
    exact h
  | stopped => simp [hr] at ht
  | panicked p => simp [hr] at ht

theorem advance_progress {s : Session} (hP : C.proto.Lawful) (hs : s.streamEnds = true) {r : ReadLoop C}
    (h : Sound r) : r.state = .stopped ∨ ∃ t, advance s r () = some t := by
  unfold advance
  cases hr : r.state with
  | reading => exact .inr (ReadLoop.read_isSome true hP hs)
  | answering response => exact .inr ⟨_, rfl⟩
  | stopping => exact .inr ⟨_, rfl⟩
  | stopped => exact .inl rfl
  | panicked p => rw [Sound, hr] at h; exact h.elim

theorem sound_survives {s : Session} (hP : C.proto.Lawful) (hs : s.encrypted = false)
    (he : s.streamEnds = true) {r : ReadLoop C} (h : Sound r) : Survives s r := by
  intro polls t ht
  have hsound : Sound t :=
    run_invariant Sound ht h fun _ _ _ _ hu hv => advance_sound hP hs hu hv
  refine ⟨?_, ?_, advance_progress hP he hsound⟩
  · intro p hp
    rw [Sound, hp] at hsound
    exact hsound
  · intro hp
    rw [Sound, hp] at hsound
    exact hsound

theorem survives_dispatched {s : Session} {r : ReadLoop C} (hr : r.state = .reading)
    {message : ProtoMessage C.proto} (h : Survives s (r.dispatched s true message)) :
    ∃ t : ReadLoop C, Survives s t ∧ t.state = .reading ∧ t.decryptCypher = r.decryptCypher ∧
      t.src = r.src ∧ t.incoming = r.incoming := by
  unfold ReadLoop.dispatched at h
  cases hd : s.api.dispatch message with
  | answer response =>
    rw [hd] at h
    exact ⟨_, h.advance rfl, rfl, rfl, rfl, rfl⟩
  | ignore =>
    rw [hd] at h
    exact ⟨r, h, hr, rfl, rfl, rfl⟩
  | forward m =>
    rw [hd] at h
    exact ⟨_, h, hr, rfl, rfl, rfl⟩

theorem advance_reading {s : Session} {r : ReadLoop C} (hr : r.state = .reading) :
    ReadPath.advance s r () = r.read s true := by
  simp only [ReadPath.advance, hr]

theorem survives_traffic {s : Session} (hP : C.proto.Lawful) (hs : s.encrypted = false)
    (he : s.streamEnds = true) {r : ReadLoop C} (hr : r.state = .reading) (h : Survives s r) :
    ∃ messages, Traffic C false r.decryptCypher r.unread messages := by
  -- every poll takes one of the bytes and chunks still to come
  induction hn : r.unread.length + r.incoming.length using Nat.strong_induction_on generalizing r with
  | _ n ih =>
    cases hp : parse s.encrypted r.src.data with
    | frame frame rest =>
      obtain ⟨src, rfl, ht⟩ := ReadLoop.read_frame true hP hp
      have hnext := h.advance ((advance_reading hr).trans ht)
      rcases handle_cases s true { r with src := src } frame with ⟨message, k, hc⟩ | ⟨p, hpanic⟩
      · rw [handle_carries hc] at hnext
        obtain ⟨t, hsurvives, hreading, hk, hsrc, hincoming⟩ := survives_dispatched
          (r := ({ r with src := src } : ReadLoop C).opened frame message k) hr hnext
        have hlt := (decoder s.encrypted).frame_shrinks hp
        rw [hs] at hp hc
        obtain ⟨w, hw, hsplit⟩ := isFrame_of_parse hp
        obtain ⟨messages, hm⟩ := ih _ (by
          simp only [ReadLoop.unread, List.length_append, hsrc, hincoming, ReadLoop.opened] at hn ⊢
          omega) hreading hsurvives rfl
        refine ⟨message :: messages, ?_⟩
        rw [ReadLoop.unread, hsplit, List.append_assoc]
        rw [hk, ReadLoop.unread, hsrc, hincoming] at hm
        exact .message hw hc hm
      · rw [hpanic] at hnext
        exact absurd hnext not_survives_panic
    | fail e =>
      obtain ⟨src, -, ht⟩ := ReadLoop.read_fail true hP hp
      exact absurd (h.advance ((advance_reading hr).trans ht)) not_survives_panic
    | incomplete =>
      cases hi : r.incoming with
      | cons chunk chunks =>
        obtain ⟨src, hsrc, ht⟩ := ReadLoop.read_chunk true hP hp hi
        have hunread := ReadLoop.unread_chunk hi hsrc
        have hnext := h.advance ((advance_reading hr).trans ht)
        rw [← hunread]
        rw [hi, List.length_cons] at hn
        exact ih (r.unread.length + chunks.length) (by omega)
          (r := { r with src := src, incoming := chunks }) hr hnext (by rw [hunread])
      | nil =>
        obtain ⟨src, -, ht⟩ := ReadLoop.read_end true hP hp hi he
        have hnext := h.advance ((advance_reading hr).trans ht)
        split_ifs at hnext with hd
        · refine ⟨[], ?_⟩
          rw [ReadLoop.unread, hd, hi]
          exact .done _
        · exact absurd hnext not_survives_panic

theorem plaintext_read_path_iff (C : Crates) (hP : C.proto.Lawful) (api : EspHomeApi)
    (debugEnabled : Bool) (chunks : List Bytes) :
    Survives (session api debugEnabled) (.new .empty chunks none : ReadLoop C) ↔
      ∃ messages, Traffic C false none chunks.flatten messages :=
  ⟨fun h => survives_traffic hP rfl rfl rfl h, fun h => sound_survives hP rfl rfl h⟩

theorem unknown_type_panics :
    ¬ Survives (session { name := "test-device" } false)
      (.new .empty [[0, 0, 200]] none : ReadLoop tagCrates) := by
  intro h
  obtain ⟨messages, ht⟩ := survives_traffic wireProto_lawful rfl rfl rfl h
  have ht : Traffic tagCrates false none ([0, 0, 200] ++ []) messages := ht
  have hp : parse false [0, 0, 200] = .frame [200] [] := rfl
  obtain ⟨message, k, more, -, hc, -⟩ := traffic_frame ht hp
  have htype : ∀ kind : MessageKind, kind.mapping.typeId ≠ (200 : UInt8).toNat := by
    intro kind
    cases kind <;> decide
  cases hc with
  | plaintext _ _ _ _ type body => exact htype _ type

theorem plaintext_read_path_two_pings :
    Survives (session { name := "test-device" } false)
      (.new .empty [[0, 0], [7, 0, 0, 7]] none : ReadLoop tagCrates) := by
  apply (plaintext_read_path_iff tagCrates wireProto_lawful { name := "test-device" } false
    [[0, 0], [7, 0, 0, 7]]).mpr
  exact ⟨[⟨.pingRequest, []⟩, ⟨.pingRequest, []⟩],
    traffic_emptyFrame 7 [0, 0, 7] rfl (traffic_emptyFrame 7 [] rfl (.done none))⟩

end EsphomeNativeApi.ReadPath
