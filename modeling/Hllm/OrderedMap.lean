import Mathlib.Data.List.Sort
import Mathlib.Data.List.Nodup
import Mathlib.Order.Defs.LinearOrder

/-!
# Maps in key order

An association list that is kept in the order of its keys. Emplacing an entry
whose key is present changes nothing, so every key occurs once.
-/

namespace Hllm.OrderedMap

variable {κ α : Type} [LinearOrder κ]

/-- Entries with a key. -/
def contains (map : List (κ×α)) (key : κ) : Bool := (map.map Prod.fst).contains key

/-- Add an entry unless its key is present. -/
def emplace (map : List (κ×α)) (entry : κ×α) : List (κ×α) :=
  if contains map entry.1 then map else map.orderedInsert (fun a b => a.1 ≤ b.1) entry

/-- Add entries one after the other. -/
def emplaceAll (map entries : List (κ×α)) : List (κ×α) := entries.foldl emplace map

section Emplace

variable {map entries : List (κ×α)} {entry other : κ×α} {key : κ}

theorem contains_iff : contains map key=true ↔ key∈map.map Prod.fst := by
  rw [contains,List.contains_iff_mem]

/-- What is in the map afterwards. -/
theorem mem_emplace : other∈emplace map entry ↔
    other∈map ∨ (other=entry ∧ entry.1∉map.map Prod.fst) := by
  unfold emplace
  split
  · rename_i h
    rw [contains_iff] at h
    constructor
    · exact .inl
    · rintro (hmem|⟨-,hnot⟩)
      · exact hmem
      · exact absurd h hnot
  · rename_i h
    rw [contains_iff] at h
    rw [List.mem_orderedInsert]
    constructor
    · rintro (heq|hmem)
      · exact .inr ⟨heq,h⟩
      · exact .inl hmem
    · rintro (hmem|⟨heq,-⟩)
      · exact .inr hmem
      · exact .inl heq

/-- The key is present afterwards, and the others as before. -/
theorem key_emplace : key∈(emplace map entry).map Prod.fst ↔
    key∈map.map Prod.fst ∨ key=entry.1 := by
  constructor
  · intro h
    obtain ⟨x,hx,rfl⟩ := List.mem_map.mp h
    rcases mem_emplace.mp hx with hmem|⟨rfl,-⟩
    · exact .inl (List.mem_map_of_mem hmem)
    · exact .inr rfl
  · rintro (h|rfl)
    · obtain ⟨x,hx,rfl⟩ := List.mem_map.mp h
      exact List.mem_map_of_mem (mem_emplace.mpr (.inl hx))
    · by_cases h : entry.1∈map.map Prod.fst
      · obtain ⟨x,hx,heq⟩ := List.mem_map.mp h
        rw [←heq]
        exact List.mem_map_of_mem (mem_emplace.mpr (.inl hx))
      · exact List.mem_map_of_mem (mem_emplace.mpr (.inr ⟨rfl,h⟩))

/-- Keys stay distinct. -/
theorem nodup_emplace (h : (map.map Prod.fst).Nodup) :
    ((emplace map entry).map Prod.fst).Nodup := by
  unfold emplace
  split
  · exact h
  · rename_i hnew
    rw [contains_iff] at hnew
    have hperm := (List.perm_orderedInsert (fun a b : κ×α => a.1 ≤ b.1) entry map).map Prod.fst
    rw [hperm.nodup_iff,List.map_cons,List.nodup_cons]
    exact ⟨hnew,h⟩

/-- Every entry of the map comes from somewhere. -/
theorem mem_of_mem_emplaceAll (h : other∈emplaceAll map entries) :
    other∈map ∨ other∈entries := by
  induction entries generalizing map with
  | nil => exact .inl h
  | cons entry entries ih =>
    rcases ih h with hmem|hmem
    · rcases mem_emplace.mp hmem with hold|⟨rfl,-⟩
      · exact .inl hold
      · exact .inr (.head _)
    · exact .inr (.tail _ hmem)

/-- The keys of the map and of the entries. -/
theorem key_emplaceAll : key∈(emplaceAll map entries).map Prod.fst ↔
    key∈map.map Prod.fst ∨ key∈entries.map Prod.fst := by
  induction entries generalizing map with
  | nil => simp [emplaceAll]
  | cons entry entries ih =>
    rw [emplaceAll,List.foldl_cons,←emplaceAll,ih,key_emplace,List.map_cons,List.mem_cons,or_assoc]

/-- Keys stay distinct. -/
theorem nodup_emplaceAll (h : (map.map Prod.fst).Nodup) :
    ((emplaceAll map entries).map Prod.fst).Nodup := by
  induction entries generalizing map with
  | nil => exact h
  | cons entry entries ih => exact ih (nodup_emplace h)

end Emplace

section Lookup

variable {κ α : Type} [BEq κ] [LawfulBEq κ] {map : List (κ×α)} {key : κ} {value : α}

/-- What is found is in the map. -/
theorem mem_of_lookup (h : map.lookup key=some value) : (key,value)∈map := by
  obtain ⟨before,after,heq,-⟩ := List.lookup_eq_some_iff.mp h
  rw [heq]
  exact List.mem_append_right _ (.head _)

/-- With distinct keys, what is in the map is found. -/
theorem lookup_of_mem (hnodup : (map.map Prod.fst).Nodup) (h : (key,value)∈map) :
    map.lookup key=some value := by
  obtain ⟨before,after,heq⟩ := List.append_of_mem h
  refine List.lookup_eq_some_iff.mpr ⟨before,after,heq,fun p hp => ?_⟩
  rw [heq,List.map_append,List.map_cons,List.nodup_append] at hnodup
  have hne := hnodup.2.2 p.1 (List.mem_map_of_mem hp) key (.head _)
  exact bne_iff_ne.mpr (Ne.symm hne)

end Lookup

end Hllm.OrderedMap
