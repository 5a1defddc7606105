import Mathlib.Data.List.Dedup
import EsphomeNativeApi.EspHomeServer

/-!
The entity registry of `EspHomeServer`: what its two maps and its key counter hold after any
sequence of `add_entity` calls.
-/

namespace EsphomeNativeApi.Server

open RustSemantics

section Maps

variable {α β : Type} [DecidableEq α] {map : List (α × β)} {key other : α} {value : β}

@[simp] theorem lookup_insert_self : (insert map key value).lookup key = some value := by
  simp [insert]

theorem lookup_filter_ne (h : other ≠ key) :
    (map.filter fun entry => entry.1 ≠ key).lookup other = map.lookup other := by
  induction map with
  | nil => rfl
  | cons entry map ih =>
    by_cases hentry : entry.1 = key
    · have hne : (other == entry.1) = false := by simpa [hentry] using h
      rw [List.filter_cons_of_neg (by simpa using hentry), ih, List.lookup_cons, hne]
    · rw [List.filter_cons_of_pos (by simpa using hentry), List.lookup_cons, List.lookup_cons, ih]

@[simp] theorem lookup_insert_of_ne (h : other ≠ key) :
    (insert map key value).lookup other = map.lookup other := by
  have hne : (other == key) = false := by simpa using h
  rw [insert, List.lookup_cons, hne, lookup_filter_ne h]

theorem insert_of_fresh (h : map.lookup key = none) : insert map key value = (key, value) :: map := by
  rw [insert, List.filter_eq_self.mpr]
  intro entry hentry
  have hne : key ≠ entry.1 := by simpa using List.lookup_eq_none_iff.mp h entry hentry
  simpa using hne.symm

theorem lookup_of_mem_keys (h : key ∈ map.map Prod.fst) : ∃ value, map.lookup key = some value := by
  apply Option.ne_none_iff_exists'.mp
  intro hnone
  obtain ⟨entry, hentry, rfl⟩ := List.mem_map.mp h
  simpa using List.lookup_eq_none_iff.mp hnone entry hentry

theorem mem_keys_of_lookup (h : map.lookup key = some value) : key ∈ map.map Prod.fst := by
  by_contra hkey
  have hnone : map.lookup key = none := by
    apply List.lookup_eq_none_iff.mpr
    intro entry hentry
    have hne : key ≠ entry.1 := fun heq => hkey (List.mem_map.mpr ⟨entry, hentry, heq.symm⟩)
    simpa using hne
  rw [hnone] at h
  cases h

end Maps

abbrev Calls := List (String × Entity)

namespace Calls

def latest (calls : Calls) (entityId : String) : Option Entity := calls.reverse.lookup entityId

/-- The call at an index, when no later one is made with its id. -/
structure IsLast (calls : Calls) (index : ℕ) (call : String × Entity) : Prop where
  made : calls[index]? = some call
  last : ∀ later ∈ calls.drop (index + 1), later.1 ≠ call.1

variable {calls : Calls} {call new : String × Entity} {index : ℕ}

theorem latest_concat (calls : Calls) (new : String × Entity) (entityId : String) :
    latest (calls ++ [new]) entityId = if entityId = new.1 then some new.2 else latest calls entityId := by
  rw [latest, List.reverse_concat, List.lookup_cons]
  by_cases h : entityId = new.1
  · simp [h]
  · have hne : (entityId == new.1) = false := by simpa using h
    rw [hne, if_neg h]
    rfl

theorem getElem?_concat_of_ne (h : index ≠ calls.length) : (calls ++ [new])[index]? = calls[index]? := by
  obtain hlt | hgt := lt_or_gt_of_ne h
  · rw [List.getElem?_append_left hlt]
  · have hlength : (calls ++ [new]).length ≤ index := by
      rw [List.length_append, List.length_singleton]
      omega
    rw [List.getElem?_eq_none hlength, List.getElem?_eq_none hgt.le]

theorem IsLast.lt (h : IsLast calls index call) : index < calls.length :=
  (List.getElem?_eq_some_iff.mp h.made).choose

theorem drop_concat (h : index < calls.length) :
    (calls ++ [new]).drop (index + 1) = calls.drop (index + 1) ++ [new] := by
  apply List.drop_append_of_le_length
  omega

theorem isLast_concat :
    IsLast (calls ++ [new]) index call ↔
      (index = calls.length ∧ call = new) ∨ (call.1 ≠ new.1 ∧ IsLast calls index call) := by
  constructor
  · intro h
    obtain hlt | heq : index < calls.length ∨ index = calls.length := by
      have := h.lt
      simp only [List.length_append, List.length_singleton] at this
      omega
    · have hlast := h.last
      rw [drop_concat hlt] at hlast
      refine .inr ⟨?_, ?_, ?_⟩
      · exact (hlast new (by simp)).symm
      · rw [← h.made, List.getElem?_append_left hlt]
      · intro later hlater
        exact hlast later (List.mem_append_left _ hlater)
    · subst heq
      have hmade := h.made
      rw [List.getElem?_concat_length] at hmade
      exact .inl ⟨rfl, (Option.some.inj hmade).symm⟩
  · rintro (⟨rfl, rfl⟩ | ⟨hne, h⟩)
    · refine ⟨List.getElem?_concat_length, ?_⟩
      intro later hlater
      rw [List.drop_of_length_le (by simp)] at hlater
      cases hlater
    · refine ⟨?_, ?_⟩
      · rw [List.getElem?_append_left h.lt, h.made]
      · intro later hlater
        rw [drop_concat h.lt, List.mem_append, List.mem_singleton] at hlater
        rcases hlater with hlater | rfl
        · exact h.last later hlater
        · exact hne.symm

theorem IsLast.latest_eq (h : IsLast calls index call) : latest calls call.1 = some call.2 := by
  induction calls using List.reverseRecOn with
  | nil => cases h.made
  | append_singleton calls new ih =>
    rw [latest_concat]
    rcases isLast_concat.mp h with ⟨-, rfl⟩ | ⟨hne, h⟩
    · rw [if_pos rfl]
    · rw [if_neg hne, ih h]

theorem exists_isLast {entityId : String} (h : entityId ∈ calls.map Prod.fst) :
    ∃ index entity, IsLast calls index (entityId, entity) := by
  induction calls using List.reverseRecOn with
  | nil => cases h
  | append_singleton calls new ih =>
    by_cases hid : entityId = new.1
    · exact ⟨calls.length, new.2, isLast_concat.mpr (.inl ⟨rfl, by rw [hid]⟩)⟩
    · have hmem : entityId ∈ calls.map Prod.fst := by simpa [hid] using h
      obtain ⟨index, entity, hlast⟩ := ih hmem
      exact ⟨index, entity, isLast_concat.mpr (.inr ⟨hid, hlast⟩)⟩

theorem isLast_cons_zero {rest : Calls} {first : String × Entity} :
    IsLast (first :: rest) 0 first ↔ ∀ later ∈ rest, later.1 ≠ first.1 := by
  constructor
  · exact fun h => h.last
  · exact fun h => ⟨rfl, h⟩

theorem isLast_cons_succ {rest : Calls} {first : String × Entity} :
    IsLast (first :: rest) (index + 1) call ↔ IsLast rest index call := by
  constructor
  · exact fun h => ⟨h.made, h.last⟩
  · exact fun h => ⟨h.made, h.last⟩

theorem all_isLast_iff :
    (∀ index call, calls[index]? = some call → IsLast calls index call) ↔ (calls.map Prod.fst).Nodup := by
  induction calls with
  | nil => simp
  | cons first rest ih =>
    rw [List.map_cons, List.nodup_cons, ← ih, List.mem_map]
    constructor
    · intro h
      refine ⟨?_, ?_⟩
      · rintro ⟨later, hlater, heq⟩
        exact isLast_cons_zero.mp (h 0 first rfl) later hlater heq
      · intro index call hcall
        exact isLast_cons_succ.mp (h (index + 1) call hcall)
    · rintro ⟨hfirst, hrest⟩ index call hcall
      cases index with
      | zero =>
        cases hcall
        apply isLast_cons_zero.mpr
        intro later hlater heq
        exact hfirst ⟨later, hlater, heq⟩
      | succ index =>
        apply isLast_cons_succ.mpr
        exact hrest index call hcall

theorem latest_of_nodup (h : (calls.map Prod.fst).Nodup) :
    (calls.map Prod.fst).filterMap (latest calls) = calls.map Prod.snd := by
  rw [List.filterMap_map, ← List.filterMap_eq_map]
  apply List.filterMap_congr
  intro call hcall
  obtain ⟨index, hindex⟩ := List.mem_iff_getElem?.mp hcall
  exact (all_isLast_iff.mpr h index call hindex).latest_eq

end Calls

def EspHomeServer.addEntities (server : EspHomeServer) (calls : Calls) : Rust EspHomeServer :=
  calls.foldlM (fun server call => server.addEntity call.1 call.2) server

structure EspHomeServer.IsEmpty (server : EspHomeServer) : Prop where
  componentsByKey : server.componentsByKey = []
  componentsKeyId : server.componentsKeyId = []
  currentKey : server.currentKey = 0

/-- The registry as its two maps are meant to hold it after the calls: the iterated entities are
the values of `components_by_key`, in any order. -/
structure RegistryHolds (calls : Calls) (server : EspHomeServer) : Prop where
  latest : ∀ entityId ∈ calls.map Prod.fst, ∃ key entity, server.componentsKeyId.lookup entityId = some key ∧
    server.componentsByKey.lookup key = some entity ∧ calls.latest entityId = some entity
  distinct : ∀ entityId otherId key, server.componentsKeyId.lookup entityId = some key →
    server.componentsKeyId.lookup otherId = some key → entityId = otherId
  fresh : server.currentKey ∉ server.componentsByKey.map Prod.fst ∧
    ∀ entityId, server.componentsKeyId.lookup entityId ≠ some server.currentKey
  owned : ∀ key ∈ server.componentsByKey.map Prod.fst,
    ∃ entityId, server.componentsKeyId.lookup entityId = some key
  entities : (server.componentsByKey.map Prod.snd).Perm
    ((calls.map Prod.fst).dedup.filterMap calls.latest)

/-- What one call keeps: key by key the two maps record the calls made so far. -/
structure Records (calls : Calls) (server : EspHomeServer) : Prop where
  current : server.currentKey = calls.length
  byKey : ∀ key, server.componentsByKey.lookup key = calls[key]?.map Prod.snd
  keyId : ∀ entityId key, server.componentsKeyId.lookup entityId = some key ↔
    ∃ entity, calls.IsLast key (entityId, entity)
  entities : server.componentsByKey.map Prod.snd = (calls.map Prod.snd).reverse

variable {calls : Calls} {call new : String × Entity} {server server' : EspHomeServer}

theorem records_nil (h : server.IsEmpty) : Records [] server := by
  obtain ⟨hbyKey, hkeyId, hcurrent⟩ := h
  constructor
  · exact hcurrent
  · simp [hbyKey]
  · intro entityId key
    rw [hkeyId]
    constructor
    · intro h
      cases h
    · rintro ⟨entity, hlast⟩
      cases hlast.made
  · simp [hbyKey]

theorem Records.fresh (h : Records calls server) :
    server.componentsByKey.lookup server.currentKey = none := by
  rw [h.byKey, h.current, List.getElem?_eq_none le_rfl]
  rfl

theorem Records.addEntity (h : Records calls server)
    (hadd : server.addEntity new.1 new.2 = .ok server') : Records (calls ++ [new]) server' := by
  rw [EspHomeServer.addEntity] at hadd
  split at hadd
  · cases hadd
    constructor
    · simp [h.current]
    · intro key
      by_cases hkey : key = server.currentKey
      · subst hkey
        rw [lookup_insert_self, h.current, List.getElem?_concat_length]
        rfl
      · rw [lookup_insert_of_ne hkey, h.byKey, Calls.getElem?_concat_of_ne (by rwa [← h.current])]
    · intro entityId key
      simp only [Calls.isLast_concat, exists_or, exists_and_left]
      by_cases hid : entityId = new.1
      · subst hid
        rw [lookup_insert_self, h.current]
        constructor
        · intro hkey
          cases hkey
          exact .inl ⟨rfl, new.2, rfl⟩
        · rintro (⟨rfl, -⟩ | ⟨hne, -⟩)
          · rfl
          · exact absurd rfl hne
      · rw [lookup_insert_of_ne hid, h.keyId]
        constructor
        · exact fun hlast => .inr ⟨hid, hlast⟩
        · rintro (⟨-, entity, rfl⟩ | ⟨-, hlast⟩)
          · exact absurd rfl hid
          · exact hlast
    · rw [insert_of_fresh h.fresh]
      simp [h.entities]
  · cases hadd

theorem Records.addEntities (hempty : server.IsEmpty) (hlength : calls.length < 2 ^ 32) :
    ∃ server', server.addEntities calls = .ok server' ∧ Records calls server' := by
  induction calls using List.reverseRecOn with
  | nil => exact ⟨server, rfl, records_nil hempty⟩
  | append_singleton calls new ih =>
    rw [List.length_append, List.length_singleton] at hlength
    obtain ⟨before, hbefore, hrecords⟩ := ih (by omega)
    have hroom : before.currentKey + 1 < 2 ^ 32 := by rwa [hrecords.current]
    obtain ⟨after, hafter⟩ : ∃ after, before.addEntity new.1 new.2 = .ok after := by
      rw [EspHomeServer.addEntity, if_pos hroom]
      exact ⟨_, rfl⟩
    refine ⟨after, ?_, hrecords.addEntity hafter⟩
    rw [EspHomeServer.addEntities, List.foldlM_append, ← EspHomeServer.addEntities, hbefore]
    simpa using hafter

theorem Records.owned_iff (h : Records calls server) :
    (∀ key ∈ server.componentsByKey.map Prod.fst,
      ∃ entityId, server.componentsKeyId.lookup entityId = some key) ↔ (calls.map Prod.fst).Nodup := by
  rw [← Calls.all_isLast_iff]
  constructor
  · intro howned key call hcall
    have hkey : key ∈ server.componentsByKey.map Prod.fst := by
      apply mem_keys_of_lookup
      rw [h.byKey, hcall, Option.map_some]
    obtain ⟨entityId, hid⟩ := howned key hkey
    obtain ⟨entity, hlast⟩ := (h.keyId entityId key).mp hid
    have hmade := hlast.made
    rw [hcall] at hmade
    rwa [Option.some.inj hmade]
  · intro hlast key hkey
    obtain ⟨entity, hentity⟩ := lookup_of_mem_keys hkey
    rw [h.byKey, Option.map_eq_some_iff] at hentity
    obtain ⟨call, hcall, rfl⟩ := hentity
    exact ⟨call.1, (h.keyId call.1 key).mpr ⟨call.2, hlast key call hcall⟩⟩

theorem Records.latest (h : Records calls server) {entityId : String} (hid : entityId ∈ calls.map Prod.fst) :
    ∃ key entity, server.componentsKeyId.lookup entityId = some key ∧
      server.componentsByKey.lookup key = some entity ∧ calls.latest entityId = some entity := by
  obtain ⟨key, entity, hlast⟩ := Calls.exists_isLast hid
  refine ⟨key, entity, (h.keyId entityId key).mpr ⟨entity, hlast⟩, ?_, hlast.latest_eq⟩
  rw [h.byKey, hlast.made, Option.map_some]

theorem Records.distinct (h : Records calls server) {entityId otherId : String} {key : ℕ}
    (hid : server.componentsKeyId.lookup entityId = some key)
    (hother : server.componentsKeyId.lookup otherId = some key) : entityId = otherId := by
  obtain ⟨entity, hlast⟩ := (h.keyId entityId key).mp hid
  obtain ⟨otherEntity, hotherLast⟩ := (h.keyId otherId key).mp hother
  have hmade := hlast.made
  rw [hotherLast.made] at hmade
  cases hmade
  rfl

theorem Records.currentKey_unused (h : Records calls server) :
    server.currentKey ∉ server.componentsByKey.map Prod.fst ∧
      ∀ entityId, server.componentsKeyId.lookup entityId ≠ some server.currentKey := by
  constructor
  · intro hkey
    obtain ⟨entity, hentity⟩ := lookup_of_mem_keys hkey
    rw [h.fresh] at hentity
    cases hentity
  · intro entityId hid
    obtain ⟨entity, hlast⟩ := (h.keyId entityId server.currentKey).mp hid
    have hlt := hlast.lt
    rw [h.current] at hlt
    exact lt_irrefl _ hlt

theorem Records.iterated (h : Records calls server) (hnodup : (calls.map Prod.fst).Nodup) :
    (server.componentsByKey.map Prod.snd).Perm ((calls.map Prod.fst).dedup.filterMap calls.latest) := by
  rw [h.entities, hnodup.dedup, Calls.latest_of_nodup hnodup]
  apply List.reverse_perm

theorem registryHolds_iff_nodup (server : EspHomeServer) (calls : Calls) (hempty : server.IsEmpty)
    (hlength : calls.length < 2 ^ 32) :
    ∃ server', server.addEntities calls = .ok server' ∧
      (RegistryHolds calls server' ↔ (calls.map Prod.fst).Nodup) := by
  obtain ⟨server', hadd, h⟩ := Records.addEntities hempty hlength
  refine ⟨server', hadd, ?_⟩
  constructor
  · intro hholds
    exact h.owned_iff.mp hholds.owned
  · intro hnodup
    constructor
    · exact fun entityId hid => h.latest hid
    · exact fun entityId otherId key => h.distinct
    · exact h.currentKey_unused
    · exact h.owned_iff.mpr hnodup
    · exact h.iterated hnodup

theorem registryHolds_motion_door :
    ∃ server', EspHomeServer.addEntities { name := "server" }
        [("motion", .binarySensor ⟨"motion_sensor"⟩), ("door", .binarySensor ⟨"door_sensor"⟩)] = .ok server' ∧
      RegistryHolds
        [("motion", .binarySensor ⟨"motion_sensor"⟩), ("door", .binarySensor ⟨"door_sensor"⟩)] server' := by
  obtain ⟨server', hadd, hiff⟩ := registryHolds_iff_nodup { name := "server" }
    [("motion", .binarySensor ⟨"motion_sensor"⟩), ("door", .binarySensor ⟨"door_sensor"⟩)]
    ⟨rfl, rfl, rfl⟩ (by decide)
  exact ⟨server', hadd, hiff.mpr (by decide)⟩

/-- The second `motion` takes the id over; the first keeps key 0, which no id leads to. -/
theorem repeated_id_keeps_replaced_entity :
    ∃ server', EspHomeServer.addEntities { name := "server" }
        [("motion", .binarySensor ⟨"motion_sensor"⟩), ("motion", .binarySensor ⟨"hall_sensor"⟩)] = .ok server' ∧
      ¬ RegistryHolds
        [("motion", .binarySensor ⟨"motion_sensor"⟩), ("motion", .binarySensor ⟨"hall_sensor"⟩)] server' := by
  refine ⟨{ name := "server", componentsKeyId := [("motion", 1)], currentKey := 2, componentsByKey :=
    [(1, .binarySensor ⟨"hall_sensor"⟩), (0, .binarySensor ⟨"motion_sensor"⟩)] }, rfl, ?_⟩
  intro h
  obtain ⟨entityId, hid⟩ := h.owned 0 (by decide)
  simp only [List.lookup_cons, List.lookup_nil] at hid
  split at hid
  · cases hid
  · cases hid

end EsphomeNativeApi.Server
