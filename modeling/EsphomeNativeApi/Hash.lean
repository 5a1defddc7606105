import EsphomeNativeApi.RustSemantics
import EsphomeNativeApi.MultiplyXor

/-!
The 32-bit FNV-1 hash that makes entity keys of names: the loop over the characters of a name,
and the same hash in two passes, over the bytes of a finished normal form.
-/

namespace EsphomeNativeApi.Hash

open RustSemantics

def fnv1OffsetBasis : UInt32 := 2166136261

def fnv1Prime : UInt32 := 16777619

def toSnakeCaseChar (c : Char) : Char :=
  if c = ' ' then '_'
  else if 'A' ≤ c ∧ c ≤ 'Z' then
    Char.ofUInt8 (c.toUInt8 + ('a'.toUInt8 - 'A'.toUInt8))
  else c

def toSanitizedChar (c : Char) : Char :=
  if c = '-' ∨ c = '_' ∨ ('0' ≤ c ∧ c ≤ '9') ∨ ('a' ≤ c ∧ c ≤ 'z') ∨ ('A' ≤ c ∧ c ≤ 'Z') then c
  else '_'

def hashFnv1 (name : String) : UInt32 :=
  name.toList.foldl
    (fun hash c =>
      let hash := hash * fnv1Prime
      let processedChar := toSanitizedChar (toSnakeCaseChar c)
      hash ^^^ processedChar.toUInt8.toUInt32)
    fnv1OffsetBasis

/-- The name after the character maps of the loop. -/
def norm (s : String) : String :=
  String.ofList (s.toList.map fun c => toSanitizedChar (toSnakeCaseChar c))

/-- Plain FNV-1 in 32 bits. -/
def fnv1 (bytes : Bytes) : ℕ :=
  bytes.foldl (fun hash byte => hash * 16777619 % 2 ^ 32 ^^^ byte.toNat) 2166136261

def IsNormal (c : Char) : Prop :=
  c = '-' ∨ c = '_' ∨ ('0' ≤ c ∧ c ≤ '9') ∨ ('a' ≤ c ∧ c ≤ 'z')

variable {c : Char} {s t : String}

theorem le_iff_toNat_le {a b : Char} : a ≤ b ↔ a.toNat ≤ b.toNat := Iff.rfl

theorem toNat_toUInt8 (h : c.toNat < 256) : c.toUInt8.toNat = c.toNat := Nat.mod_eq_of_lt h

/-- The sum of the bytes does not overflow. -/
theorem toNat_lowered (h : 'A' ≤ c ∧ c ≤ 'Z') :
    (c.toUInt8 + ('a'.toUInt8 - 'A'.toUInt8)).toNat = c.toNat + 32 := by
  have hle : c.toNat ≤ 90 := h.2
  rw [UInt8.toNat_add, toNat_toUInt8 (by omega)]
  apply Nat.mod_eq_of_lt
  change c.toNat + 32 < 256
  omega

theorem toSnakeCaseChar_not_upper : ¬ ('A' ≤ toSnakeCaseChar c ∧ toSnakeCaseChar c ≤ 'Z') := by
  rw [toSnakeCaseChar]
  split
  · decide
  · split
    · rename_i h
      intro hupper
      have hle : (c.toUInt8 + ('a'.toUInt8 - 'A'.toUInt8)).toNat ≤ 90 := hupper.2
      have hlow : 65 ≤ c.toNat := h.1
      rw [toNat_lowered h] at hle
      omega
    · assumption

theorem isNormal_toSanitizedChar (h : ¬ ('A' ≤ c ∧ c ≤ 'Z')) : IsNormal (toSanitizedChar c) := by
  rw [toSanitizedChar]
  split
  · rename_i hkept
    rcases hkept with hc | hc | hc | hc | hc
    · exact .inl hc
    · exact .inr (.inl hc)
    · exact .inr (.inr (.inl hc))
    · exact .inr (.inr (.inr hc))
    · exact absurd hc h
  · exact .inr (.inl rfl)

theorem isNormal_processed : IsNormal (toSanitizedChar (toSnakeCaseChar c)) :=
  isNormal_toSanitizedChar toSnakeCaseChar_not_upper

theorem isNormal_of_mem (h : c ∈ (norm s).toList) : IsNormal c := by
  rw [norm, String.toList_ofList, List.mem_map] at h
  obtain ⟨source, -, rfl⟩ := h
  exact isNormal_processed

theorem IsNormal.lt (h : IsNormal c) : c.toNat < 128 := by
  rcases h with rfl | rfl | ⟨-, hle⟩ | ⟨-, hle⟩
  · decide
  · decide
  · exact lt_of_le_of_lt (le_iff_toNat_le.mp hle) (by decide)
  · exact lt_of_le_of_lt (le_iff_toNat_le.mp hle) (by decide)

theorem IsNormal.byte (h : IsNormal c) : c.toUInt8.toNat = c.toNat := by
  apply toNat_toUInt8
  have hlt := h.lt
  omega

theorem IsNormal.ne_space (h : IsNormal c) : c ≠ ' ' := by
  rintro rfl
  rcases h with h | h | ⟨h, -⟩ | ⟨h, -⟩
  · exact absurd h (by decide)
  · exact absurd h (by decide)
  · exact absurd h (by decide)
  · exact absurd h (by decide)

theorem IsNormal.not_upper (h : IsNormal c) : ¬ ('A' ≤ c ∧ c ≤ 'Z') := by
  rintro ⟨hle, hge⟩
  rcases h with rfl | rfl | ⟨-, h⟩ | ⟨h, -⟩
  · exact absurd hle (by decide)
  · exact absurd hge (by decide)
  · exact absurd (hle.trans h) (by decide)
  · exact absurd (h.trans hge) (by decide)

theorem IsNormal.processed (h : IsNormal c) : toSanitizedChar (toSnakeCaseChar c) = c := by
  rw [toSnakeCaseChar, if_neg h.ne_space, if_neg h.not_upper, toSanitizedChar, if_pos]
  rcases h with h | h | h | h
  · exact .inl h
  · exact .inr (.inl h)
  · exact .inr (.inr (.inl h))
  · exact .inr (.inr (.inr (.inl h)))

theorem map_eq_self {α : Type} {xs : List α} {f : α → α} (h : ∀ x ∈ xs, f x = x) : xs.map f = xs := by
  conv_rhs => rw [← List.map_id xs]
  exact List.map_congr_left h

theorem norm_norm (s : String) : norm (norm s) = norm s := by
  have hkept : (norm s).toList.map (fun c => toSanitizedChar (toSnakeCaseChar c)) = (norm s).toList := by
    apply map_eq_self
    intro c hc
    exact (isNormal_of_mem hc).processed
  rw [norm, hkept, String.ofList_toList]

theorem utf8EncodeChar_of_lt (h : c.toNat < 128) : String.utf8EncodeChar c = [c.toUInt8] := by
  apply String.utf8EncodeChar_eq_singleton
  apply Char.utf8Size_eq_one_iff.mpr
  exact Nat.le_of_lt_succ h

theorem asBytes_eq_flatMap (s : String) : asBytes s = s.toList.flatMap String.utf8EncodeChar := by
  rw [asBytes, String.toUTF8_eq_toByteArray, ← String.utf8Encode_toList, List.utf8Encode,
    List.data_toByteArray, List.toList_toArray]

theorem asBytes_norm (s : String) : asBytes (norm s) = (norm s).toList.map Char.toUInt8 := by
  rw [asBytes_eq_flatMap, List.map_eq_flatMap]
  apply List.flatMap_congr
  intro c hc
  exact utf8EncodeChar_of_lt (isNormal_of_mem hc).lt

def words (s : String) : List (BitVec 32) :=
  (norm s).toList.map fun c => c.toUInt8.toUInt32.toBitVec

theorem toBitVec_hashFnv1 (s : String) :
    (hashFnv1 s).toBitVec = MultiplyXor.hash fnv1Prime.toBitVec fnv1OffsetBasis.toBitVec (words s) := by
  rw [words, norm, String.toList_ofList, List.map_map, MultiplyXor.hash, List.foldl_map, hashFnv1]
  symm
  apply List.foldl_hom
  intro hash c
  rfl

theorem words_toNat (s : String) : (words s).map BitVec.toNat = (asBytes (norm s)).map UInt8.toNat := by
  rw [words, asBytes_norm, List.map_map, List.map_map]
  apply List.map_congr_left
  intro c hc
  exact UInt8.toNat_toUInt32 c.toUInt8

theorem hashFnv1_eq_fnv1 (s : String) : (hashFnv1 s).toNat = fnv1 (asBytes (norm s)) := by
  rw [← UInt32.toNat_toBitVec, toBitVec_hashFnv1, MultiplyXor.toNat_hash, words_toNat, List.foldl_map, fnv1]
  rfl

example : hashFnv1 "Foo" = 0x408F5E13 := by decide +kernel

theorem hashFnv1_eq_of_norm_eq (h : norm s = norm t) : hashFnv1 s = hashFnv1 t := by
  apply UInt32.toNat_inj.mp
  rw [hashFnv1_eq_fnv1, hashFnv1_eq_fnv1, h]

/-- The loop is the two-pass definition: normal form first, then plain FNV-1 over its bytes. -/
theorem hashFnv1_two_pass (s : String) :
    (∀ c ∈ (norm s).toList, IsNormal c ∧ c.toUInt8.toNat = c.toNat) ∧
    norm (norm s) = norm s ∧
    (hashFnv1 s).toNat = fnv1 (asBytes (norm s)) ∧
    hashFnv1 s = hashFnv1 (norm s) ∧
    ∀ t, norm s = norm t → hashFnv1 s = hashFnv1 t := by
  refine ⟨?_, norm_norm s, hashFnv1_eq_fnv1 s, ?_, ?_⟩
  · intro c hc
    exact ⟨isNormal_of_mem hc, (isNormal_of_mem hc).byte⟩
  · exact hashFnv1_eq_of_norm_eq (norm_norm s).symm
  · exact fun t h => hashFnv1_eq_of_norm_eq h

theorem hashFnv1_two_pass_umlaut : hashFnv1 "Küche 1" = hashFnv1 "k_che_1" :=
  (hashFnv1_two_pass "Küche 1").2.2.2.2 "k_che_1" (by decide +kernel)

theorem words_lt : ∀ b ∈ words s, b.toNat < 2 ^ 7 := by
  intro b hb
  rw [words, List.mem_map] at hb
  obtain ⟨c, hc, rfl⟩ := hb
  change c.toUInt8.toNat < 2 ^ 7
  rw [(isNormal_of_mem hc).byte]
  exact (isNormal_of_mem hc).lt

theorem ofList_words (s : String) : String.ofList ((words s).map fun b => Char.ofNat b.toNat) = norm s := by
  have hback : (words s).map (fun b => Char.ofNat b.toNat) = (norm s).toList := by
    rw [words, List.map_map]
    apply map_eq_self
    intro c hc
    change Char.ofNat c.toUInt8.toNat = c
    rw [(isNormal_of_mem hc).byte, Char.ofNat_toNat]
  rw [hback, String.ofList_toList]

theorem norm_eq_of_words_eq (h : words s = words t) : norm s = norm t := by
  rw [← ofList_words s, ← ofList_words t, h]

theorem separates_fnv1Prime : MultiplyXor.Separates fnv1Prime.toBitVec 7 := by
  apply MultiplyXor.separates_of_bounds
  · decide
  · decide

theorem hashFnv1_ne_of_window (s t : String) (hlength : (norm s).length = (norm t).length)
    (hne : norm s ≠ norm t) (i : ℕ)
    (hwindow : ∀ j, j ≠ i → j ≠ i + 1 → (norm s).toList[j]? = (norm t).toList[j]?) :
    hashFnv1 s ≠ hashFnv1 t := by
  intro heq
  apply hne
  apply norm_eq_of_words_eq
  apply MultiplyXor.eq_of_window (by decide) separates_fnv1Prime i words_lt words_lt
  · rw [words, words, List.length_map, List.length_map, String.length_toList, String.length_toList, hlength]
  · intro j hj hj'
    rw [words, words, List.getElem?_map, List.getElem?_map, hwindow j hj hj']
  · rw [← toBitVec_hashFnv1, ← toBitVec_hashFnv1, heq]

theorem hashFnv1_sensor_00_ne_sensor_12 : hashFnv1 "Sensor 00" ≠ hashFnv1 "sensor_12" := by
  have hs : (norm "Sensor 00").toList = ['s', 'e', 'n', 's', 'o', 'r', '_'] ++ ['0', '0'] := by decide +kernel
  have ht : (norm "sensor_12").toList = ['s', 'e', 'n', 's', 'o', 'r', '_'] ++ ['1', '2'] := by decide +kernel
  apply hashFnv1_ne_of_window "Sensor 00" "sensor_12" (by decide +kernel) (by decide +kernel) 7
  intro j hj hj'
  rw [hs, ht]
  rcases lt_or_ge j 7 with hlt | hge
  · rw [List.getElem?_append_left hlt, List.getElem?_append_left hlt]
  · have hlong : 9 ≤ j := by omega
    rw [List.getElem?_eq_none hlong, List.getElem?_eq_none hlong]

end EsphomeNativeApi.Hash
