import EsphomeNativeApi.Hash
import EsphomeNativeApi.Packets

/-!
The server hello: the name and the MAC address, each ended by a zero byte.
-/

namespace EsphomeNativeApi.ServerHello

open RustSemantics PacketEncrypted Hash

def NulFree (s : String) : Prop := '\x00' ∉ s.toList

def helloFields (mac : Option String) : Bytes :=
  match mac with
  | some mac => asBytes mac ++ [0]
  | none => []

theorem hello_eq (name : String) (mac : Option String) :
    generateServerHelloFrame name mac = 1 :: (asBytes name ++ 0 :: helloFields mac) := by
  cases mac <;> simp [generateServerHelloFrame, helloFields]

theorem ofNat_eq_zero {n : ℕ} (h : 0 = UInt8.ofNat n) : n % 256 = 0 := by
  have hn := congrArg UInt8.toNat h
  rw [UInt8.toNat_ofNat'] at hn
  exact hn.symm

theorem zero_mem_utf8EncodeChar (c : Char) : 0 ∈ String.utf8EncodeChar c ↔ c = '\x00' := by
  constructor
  · intro h
    unfold String.utf8EncodeChar at h
    dsimp only at h
    split_ifs at h with h₁ h₂ h₃ <;> simp only [List.mem_cons, List.not_mem_nil, or_false] at h
    · have hv := ofNat_eq_zero h
      apply Char.ext
      apply UInt32.toNat_inj.mp
      have hnul : '\x00'.val.toNat = 0 := rfl
      omega
    -- the bytes of a longer sequence have their high bit set
    · rcases h with h | h
      all_goals have hv := ofNat_eq_zero h; omega
    · rcases h with h | h | h
      all_goals have hv := ofNat_eq_zero h; omega
    · rcases h with h | h | h | h
      all_goals have hv := ofNat_eq_zero h; omega
  · rintro rfl
    decide

theorem zero_mem_asBytes (s : String) : 0 ∈ asBytes s ↔ '\x00' ∈ s.toList := by
  rw [asBytes_eq_flatMap, List.mem_flatMap]
  constructor
  · rintro ⟨c, hc, hzero⟩
    exact (zero_mem_utf8EncodeChar c).mp hzero ▸ hc
  · intro h
    exact ⟨_, h, (zero_mem_utf8EncodeChar _).mpr rfl⟩

theorem asBytes_injective {s t : String} (h : asBytes s = asBytes t) : s = t := by
  apply String.toByteArray_inj.mp
  apply ByteArray.ext
  exact Array.toList_inj.mp h

theorem helloFields_injective {mac mac' : Option String} (h : helloFields mac = helloFields mac') :
    mac = mac' := by
  cases mac with
  | none =>
    cases mac' with
    | none => rfl
    | some mac' => simp [helloFields] at h
  | some mac =>
    cases mac' with
    | none => simp [helloFields] at h
    | some mac' => rw [asBytes_injective (List.append_cancel_right h)]

theorem first_zero {u v x y : Bytes} (hu : 0 ∉ u) (hv : 0 ∉ v) (h : u ++ 0 :: x = v ++ 0 :: y) :
    u = v ∧ x = y := by
  induction u generalizing v with
  | nil =>
    cases v with
    | nil => exact ⟨rfl, (List.cons.inj h).2⟩
    | cons b v => exact absurd (List.cons.inj h).1 (List.ne_of_not_mem_cons hv)
  | cons a u ih =>
    cases v with
    | nil => exact absurd (List.cons.inj h).1.symm (List.ne_of_not_mem_cons hu)
    | cons b v =>
      obtain ⟨rfl, htail⟩ := List.cons.inj h
      obtain ⟨rfl, hrest⟩ := ih (List.not_mem_of_not_mem_cons hu) (List.not_mem_of_not_mem_cons hv) htail
      exact ⟨rfl, hrest⟩

theorem hello_determines (name : String) :
    NulFree name ↔ ∀ mac name' mac', NulFree name' →
      generateServerHelloFrame name mac = generateServerHelloFrame name' mac' → name = name' ∧ mac = mac' := by
  constructor
  · intro h mac name' mac' h' hsame
    rw [hello_eq, hello_eq] at hsame
    obtain ⟨hname, hfields⟩ := first_zero (mt (zero_mem_asBytes name).mp h) (mt (zero_mem_asBytes name').mp h')
      (List.cons.inj hsame).2
    exact ⟨asBytes_injective hname, helloFields_injective hfields⟩
  · intro h hnul
    obtain ⟨before, after, hsplit, hfree⟩ := List.eq_append_cons_of_mem hnul
    -- what follows the zero reads as a MAC address
    have hsame : generateServerHelloFrame name none =
        generateServerHelloFrame (String.ofList before) (some (String.ofList after)) := by
      rw [hello_eq, hello_eq, helloFields, helloFields]
      simp only [asBytes_eq_flatMap, hsplit, String.toList_ofList, List.flatMap_append, List.flatMap_cons]
      have hzero : String.utf8EncodeChar '\x00' = [0] := by decide
      rw [hzero]
      simp
    have hmac := (h none _ _ (by rw [NulFree, String.toList_ofList]; exact hfree) hsame).2
    cases hmac

end EsphomeNativeApi.ServerHello
