import EsphomeNativeApi.MessageTable

/-!
`FrameCodec`, the codec between the byte stream and packets.
-/

namespace EsphomeNativeApi.Frames

open RustSemantics MessageTable

inductive ErrorKind where
  | invalidData
  | other
  deriving DecidableEq, Repr

structure IoError where
  kind : ErrorKind
  message : String
  deriving DecidableEq, Repr

structure FrameCodec where
  encrypted : Bool
  maxLength : ℕ

def FrameCodec.new (encrypted : Bool) : FrameCodec := ⟨encrypted, 8 * 1024 * 1024⟩

def expectedEncrypted : IoError :=
  ⟨.invalidData, "Expected encrypted frame, but got plaintext frame."⟩

def expectedPlaintext : IoError :=
  ⟨.invalidData, "Expected plaintext frame, but got encrypted frame."⟩

def markerTooLong : IoError := ⟨.invalidData, "Varint length marker is too long."⟩

def tooLarge (len : ℕ) : IoError :=
  ⟨.invalidData, "Frame of length " ++ toString len ++ " is too large."⟩

/-- The `loop` of `decode`: `ok none` and `error` are its early returns, `ok (some n)` is
`break` with the cursor at `n`. -/
def varintLoop (src : Bytes) (varintLength : ℕ) : Rust (Except IoError (Option ℕ)) :=
  if src.length < varintLength + 1 then .ok (.ok none)
  else do
    let byte ← index src varintLength
    if byte &&& (1 : UInt8) <<< 7 = 0 then .ok (.ok (some varintLength))
    else if varintLength + 1 > 4 then .ok (.error markerTooLong)
    else varintLoop src (varintLength + 1)
termination_by 5 - varintLength
decreasing_by omega

def readU16 : Bytes → Rust ℕ
  | hi :: lo :: _ => .ok (hi.toNat * 256 + lo.toNat)
  | _ => .error .outOfRange

def u16ToBeBytes (n : ℕ) : Bytes :=
  -- `as u16` has dropped the bits above the sixteenth
  [UInt8.ofNat (n % 65536 / 256), UInt8.ofNat (n % 256)]

def FrameCodec.header (P : Proto) (c : FrameCodec) (src : Bytes) :
    Rust (Except IoError (Option (ℕ × ℕ))) := do
  let preamble ← index src 0
  if c.encrypted then
    if preamble ≠ 1 then .ok (.error expectedEncrypted)
    else if src.length < 2 + 1 then .ok (.ok none)
    else
      let length ← readU16 (← slice src 1 3)
      .ok (.ok (some (2, length)))
  else
    if preamble ≠ 0 then .ok (.error expectedPlaintext)
    else
      match ← varintLoop src 1 with
      | .error e => .ok (.error e)
      | .ok none => .ok (.ok none)
      | .ok (some varintLength) =>
        let marker ← slice src 1 (varintLength + 1)
        let length ← addUsize (← unwrapOption (P.decodeLengthDelimiter marker)) 1
        .ok (.ok (some (varintLength, length)))

/-- The argument of `reserve` in `decode`, where the buffer is too small for the frame. -/
def additionalFor (src : BytesMut) (newCursor : ℕ) : Rust (Option ℕ) :=
  if src.capacity < newCursor then do
    let additional ← subUsize newCursor src.len
    .ok (some additional)
  else .ok none

def reserveFor (growth : ℕ → ℕ → ℕ) (src : BytesMut) (newCursor : ℕ) : Rust BytesMut := do
  let additional ← additionalFor src newCursor
  .ok (additional.elim src (src.reserve growth))

def takeFrame (growth : ℕ → ℕ → ℕ) (src : BytesMut) (varintLength length : ℕ) :
    Rust (Except IoError (Option Bytes) × BytesMut) := do
  let newCursor ← addUsize (1 + varintLength) length
  let src ← reserveFor growth src newCursor
  if src.len < newCursor then .ok (.ok none, src)
  else
    let dataStart := varintLength + 1
    let data ← slice src.data dataStart (dataStart + length)
    let src ← src.advance newCursor
    .ok (.ok (some data), src)

def FrameCodec.decode (P : Proto) (c : FrameCodec) (src : BytesMut) :
    Rust (Except IoError (Option Bytes) × BytesMut) :=
  if src.data.isEmpty then .ok (.ok none, src)
  else do
    match ← c.header P src.data with
    | .error e => .ok (.error e, src)
    | .ok none => .ok (.ok none, src)
    | .ok (some (varintLength, length)) => takeFrame P.growth src varintLength length

/-- What `decode` calls `reserve` with, if it does. -/
def FrameCodec.reserves (P : Proto) (c : FrameCodec) (src : BytesMut) : Rust (Option ℕ) :=
  if src.data.isEmpty then .ok none
  else do
    match ← c.header P src.data with
    | .ok (some (varintLength, length)) => additionalFor src (← addUsize (1 + varintLength) length)
    | _ => .ok none

def bytesRemaining : IoError := ⟨.other, "bytes remaining on stream"⟩

/-- The default `Decoder::decode_eof` of `tokio_util`. -/
def FrameCodec.decodeEof (P : Proto) (c : FrameCodec) (src : BytesMut) :
    Rust (Except IoError (Option Bytes) × BytesMut) := do
  match ← c.decode P src with
  | (.ok none, src) =>
    if src.data.isEmpty then .ok (.ok none, src)
    else .ok (.error bytesRemaining, src)
  | r => .ok r

def FrameCodec.encode (P : Proto) (c : FrameCodec) (item : Bytes) (dst : BytesMut) :
    Rust (Except IoError Unit × BytesMut) := do
  let length ← if c.encrypted then .ok item.length else subUsize item.length 1
  if item.length > c.maxLength then .ok (.error (tooLarge item.length), dst)
  else
    let lenSlice ← if c.encrypted then .ok (u16ToBeBytes length)
      else unwrapOption (P.encodeLengthDelimiter length)
    let dst := dst.reserve P.growth (lenSlice.length + item.length)
    let dst := dst.extendFromSlice P.growth [if c.encrypted then 1 else 0]
    let dst := dst.extendFromSlice P.growth lenSlice
    let dst := dst.extendFromSlice P.growth item
    .ok (.ok (), dst)

variable {growth : ℕ → ℕ → ℕ}

theorem reserveFor_data {src dst : BytesMut} {n : ℕ} (h : reserveFor growth src n = .ok dst) :
    dst.data = src.data := by
  obtain ⟨additional, -, h⟩ := (bind_ok_iff _ _ _).mp h
  cases h
  cases additional with
  | none => rfl
  | some additional => exact BytesMut.reserve_data growth src additional

theorem takeFrame_shrinks {src dst : BytesMut} {v n : ℕ} {data : Bytes}
    (h : takeFrame growth src v n = .ok (.ok (some data), dst)) : dst.data.length < src.data.length := by
  simp only [takeFrame, bind_ok_iff] at h
  obtain ⟨cursor, hc, src', hs, h⟩ := h
  have hcursor : 0 < cursor := by
    unfold addUsize at hc
    split_ifs at hc
    cases hc
    omega
  have hdata : src'.data = src.data := reserveFor_data hs
  split_ifs at h with hlen
  · cases h
  · obtain ⟨d, -, h⟩ := (bind_ok_iff _ _ _).mp h
    obtain ⟨rest, hr, h⟩ := (bind_ok_iff _ _ _).mp h
    cases h
    obtain ⟨hle, he⟩ := BytesMut.advance_data hr
    rw [he, List.length_drop, hdata]
    rw [hdata] at hle
    omega

theorem decode_shrinks {P : Proto} {c : FrameCodec} {src dst : BytesMut} {data : Bytes}
    (h : c.decode P src = .ok (.ok (some data), dst)) : dst.data.length < src.data.length := by
  unfold FrameCodec.decode at h
  split_ifs at h
  · cases h
  · obtain ⟨header, -, h⟩ := (bind_ok_iff _ _ _).mp h
    match header with
    | .error e => cases h
    | .ok none => cases h
    | .ok (some (v, n)) => exact takeFrame_shrinks h

def FrameCodec.decodeAll (P : Proto) (c : FrameCodec) (src : BytesMut) :
    Rust (List Bytes × Option IoError × BytesMut) :=
  match _h : c.decode P src with
  | .error p => .error p
  | .ok (.error e, src) => .ok ([], some e, src)
  | .ok (.ok none, src) => .ok ([], none, src)
  | .ok (.ok (some data), src) => do
    let (frames, e, src) ← c.decodeAll P src
    .ok (data :: frames, e, src)
termination_by src.data.length
decreasing_by exact decode_shrinks _h

/-- Deliver the chunks one after another, calling `decode` after each until it returns
`None`, and stop at the first error. -/
def FrameCodec.deliver (P : Proto) (c : FrameCodec) :
    BytesMut → List Bytes → Rust (List Bytes × Option IoError × BytesMut)
  | src, [] => .ok ([], none, src)
  | src, chunk :: chunks => do
    match ← c.decodeAll P (src.extendFromSlice P.growth chunk) with
    | (frames, some e, src) => .ok (frames, some e, src)
    | (frames, none, src) =>
      let (more, e, src) ← c.deliver P src chunks
      .ok (frames ++ more, e, src)

def FrameCodec.encodeAll (P : Proto) (c : FrameCodec) :
    List Bytes → BytesMut → Rust (Except IoError Unit × BytesMut)
  | [], dst => .ok (.ok (), dst)
  | item :: items, dst => do
    match ← c.encode P item dst with
    | (.error e, dst) => .ok (.error e, dst)
    | (.ok (), dst) => c.encodeAll P items dst

end EsphomeNativeApi.Frames
