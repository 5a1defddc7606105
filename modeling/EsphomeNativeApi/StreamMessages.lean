import EsphomeNativeApi.Histories

/-!
The messages that a byte stream carries. They depend on its bytes alone, and the read loop
handles them from the first one on.
-/

namespace EsphomeNativeApi.StreamMessages

open RustSemantics MessageTable Frames FrameFormat Framing PacketEncrypted Start ReadLoops ClientTraffic
open ReadHistories

variable {C : Crates}

def openWhile (C : Crates) (encrypted : Bool) :
    Option (CipherState C.aead) → List Bytes → List (ProtoMessage C.proto)
  | _, [] => []
  | k, frame :: frames =>
    match openFrame C encrypted k frame with
    | .error _ => []
    | .ok (message, k) => message :: openWhile C encrypted k frames

/-- The messages of the frames of the stream, up to the first frame that carries none. -/
def carried (C : Crates) (encrypted : Bool) (k : Option (CipherState C.aead)) (stream : Bytes) :
    List (ProtoMessage C.proto) :=
  openWhile C encrypted k (drain (decoder encrypted) stream).1

variable {encrypted : Bool} {k k' : Option (CipherState C.aead)} {frames more : List Bytes}
  {opened : List (ProtoMessage C.proto)} {stream rest : Bytes}

theorem openWhile_append (h : openFrames C encrypted k frames = .ok (opened, k')) (more : List Bytes) :
    openWhile C encrypted k (frames ++ more) = opened ++ openWhile C encrypted k' more := by
  induction frames generalizing k opened with
  | nil =>
    cases h
    rfl
  | cons frame frames ih =>
    obtain ⟨⟨message, k₁⟩, hm, h⟩ := (bind_ok_iff _ _ _).mp h
    obtain ⟨⟨messages, k₂⟩, hms, h⟩ := (bind_ok_iff _ _ _).mp h
    cases h
    simp only [List.cons_append, openWhile, hm]
    rw [ih hms]

theorem openWhile_prefix (k : Option (CipherState C.aead)) (frames more : List Bytes) :
    openWhile C encrypted k frames <+: openWhile C encrypted k (frames ++ more) := by
  induction frames generalizing k with
  | nil => exact List.nil_prefix
  | cons frame frames ih =>
    rw [List.cons_append, openWhile, openWhile]
    cases openFrame C encrypted k frame with
    | error p => exact List.prefix_refl _
    | ok opened => exact (List.prefix_cons_inj _).mpr (ih opened.2)

theorem carried_frames {ws : List Bytes} (hws : List.Forall₂ (IsFrame encrypted) ws frames)
    (ho : openFrames C encrypted k frames = .ok (opened, k')) (rest : Bytes) :
    carried C encrypted k (ws.flatten ++ rest) = opened ++ carried C encrypted k' rest := by
  have hencodings := hws.imp fun _ _ hw => parse_isFrame hw
  rw [carried, drain_encodings (decoder encrypted) ws frames rest hencodings]
  exact openWhile_append ho _

theorem carried_prefix (k : Option (CipherState C.aead)) (stream rest : Bytes) :
    carried C encrypted k stream <+: carried C encrypted k (stream ++ rest) := by
  rw [carried, carried, drain_append, Drained.resume]
  cases (drain (decoder encrypted) stream).2 with
  | error e => exact List.prefix_refl _
  | ok left => exact openWhile_prefix k _ _

@[simp] theorem carried_nil (k : Option (CipherState C.aead)) : carried C encrypted k [] = [] := by
  rw [carried, drain_nil]
  rfl

theorem carried_incomplete (h : parse encrypted stream = .incomplete) : carried C encrypted k stream = [] := by
  rw [carried, drain_incomplete (decoder encrypted) h]
  rfl

theorem carried_frame {frame left : Bytes} {message : ProtoMessage C.proto}
    (hp : parse encrypted stream = .frame frame left) (hc : Carries C encrypted k frame message k')
    (rest : Bytes) :
    carried C encrypted k (stream ++ rest) = message :: carried C encrypted k' (left ++ rest) := by
  obtain ⟨w, hw, rfl⟩ := isFrame_of_parse hp
  have ho : openFrames C encrypted k [frame] = .ok ([message], k') := by
    simp [openFrames, (openFrame_ok_iff _ _ _ _ _).mpr hc]
  have hall := carried_frames (.cons hw .nil) ho (left ++ rest)
  rw [List.flatten_singleton] at hall
  rw [List.append_assoc]
  exact hall

theorem traffic_carried {received : List (ProtoMessage C.proto)} (h : Traffic C encrypted k stream received) :
    carried C encrypted k stream = received := by
  induction h with
  | done k => exact carried_nil k
  | @message k k' w frame rest message messages framed carries next ih =>
    have hall := carried_frame (parse_isFrame framed []) carries rest
    rw [List.append_nil, List.nil_append] at hall
    rw [hall, ih]

section History

variable {s : Session} {r : ReadLoop C}

theorem handled_carried (h : ReaderHistory s k stream r) :
    messages r <+: carried C s.encrypted k stream := by
  obtain ⟨ws, rest, hws, hs, -⟩ := h.framed
  rw [hs, carried_frames hws h.opened]
  exact List.prefix_append _ _

theorem handled_rest (h : ReaderHistory s k stream r) (hr : ¬ panicked r) :
    carried C s.encrypted k stream = messages r ++ carried C s.encrypted r.decryptCypher r.unread := by
  obtain ⟨ws, rest, hws, hs, hrest⟩ := h.framed
  rw [hs, carried_frames hws h.opened, hrest hr]

end History

end EsphomeNativeApi.StreamMessages
