import Mathlib.Data.List.Induction
import Mathlib.Data.List.Nodup

/-!
# Insertion-ordered dictionaries

A dictionary built from a list of values with keys. A key keeps the place of
its first value and the content of its last one. Values are stored with the
key function left implicit, so a dictionary is a list of values.
-/

namespace Hllm.OrderedDict

variable {α κ : Type*} [DecidableEq κ]

/-- Write one value. -/
def put (key : α → κ) (x : α) : List α → List α
  | [] => [x]
  | y::ys => if key y=key x then x::ys else y::put key x ys

/-- Write all values in order. -/
def ofList (key : α → κ) (xs : List α) : List α := xs.foldl (fun dict x => put key x dict) []

variable {key : α → κ}

/-- What is stored after a write is the written value or was stored before. -/
theorem mem_put {x y : α} {ys : List α} (h : y∈put key x ys) : y=x ∨ y∈ys := by
  induction ys with
  | nil => exact .inl (List.mem_singleton.mp h)
  | cons head tail ih =>
    rw [put] at h
    split at h
    · rcases List.mem_cons.mp h with rfl|h
      · exact .inl rfl
      · exact .inr (.tail _ h)
    · rcases List.mem_cons.mp h with rfl|h
      · exact .inr (.head _)
      · exact (ih h).imp_right (.tail _)

/-- The written value is stored. -/
theorem mem_put_self (x : α) (ys : List α) : x∈put key x ys := by
  induction ys with
  | nil => exact .head _
  | cons head tail ih =>
    rw [put]
    split
    · exact .head _
    · exact .tail _ ih

/-- A value with another key stays. -/
theorem mem_put_of_ne {x y : α} {ys : List α} (h : y∈ys) (hne : key y≠key x) :
    y∈put key x ys := by
  induction ys with
  | nil => cases h
  | cons head tail ih =>
    rw [put]
    split
    · rename_i hkey
      rcases List.mem_cons.mp h with rfl|h
      · exact absurd hkey hne
      · exact .tail _ h
    · rcases List.mem_cons.mp h with rfl|h
      · exact .head _
      · exact .tail _ (ih h)

/-- A new key is stored last. -/
theorem put_of_not_mem {x : α} {ys : List α} (h : key x∉ys.map key) : put key x ys=ys++[x] := by
  induction ys with
  | nil => rfl
  | cons head tail ih =>
    rw [List.map_cons,List.mem_cons,not_or] at h
    rw [put,if_neg (Ne.symm h.1),ih h.2,List.cons_append]

/-- New keys are stored last, in order. -/
theorem foldl_put_of_nodup {xs ys : List α} (h : (ys.map key++xs.map key).Nodup) :
    xs.foldl (fun dict x => put key x dict) ys=ys++xs := by
  induction xs generalizing ys with
  | nil => rw [List.foldl_nil,List.append_nil]
  | cons x xs ih =>
    have hnew : key x∉ys.map key := fun hmem =>
      (List.nodup_append.mp h).2.2 _ hmem _ (List.mem_map_of_mem (.head _)) rfl
    rw [List.foldl_cons,put_of_not_mem hnew,ih,List.append_assoc,List.singleton_append]
    rw [List.map_append,List.map_cons,List.map_nil,List.append_assoc,List.singleton_append]
    exact h

/-- A write keeps the keys apart. -/
theorem nodup_put {x : α} {ys : List α} (h : (ys.map key).Nodup) :
    ((put key x ys).map key).Nodup := by
  induction ys with
  | nil => exact List.nodup_singleton _
  | cons head tail ih =>
    rw [List.map_cons,List.nodup_cons] at h
    rw [put]
    split
    · rename_i hkey
      rw [List.map_cons,List.nodup_cons,←hkey]
      exact h
    · rename_i hkey
      rw [List.map_cons,List.nodup_cons]
      refine ⟨fun hm => ?_,ih h.2⟩
      obtain ⟨y,hy,hsame⟩ := List.mem_map.mp hm
      rcases mem_put hy with rfl|hy
      · exact hkey hsame.symm
      · exact h.1 (hsame ▸ List.mem_map_of_mem hy)

/-- One more value. -/
theorem ofList_concat (xs : List α) (x : α) : ofList key (xs++[x])=put key x (ofList key xs) := by
  rw [ofList,List.foldl_append]
  rfl

/-- Stored values were written. -/
theorem mem_of_mem_ofList {x : α} {xs : List α} (h : x∈ofList key xs) : x∈xs := by
  induction xs using List.reverseRecOn with
  | nil => cases h
  | append_singleton xs y ih =>
    rw [ofList_concat] at h
    rcases mem_put h with rfl|h
    · simp
    · exact List.mem_append_left _ (ih h)

/-- Every key written is stored. -/
theorem exists_mem_ofList {x : α} {xs : List α} (h : x∈xs) : ∃ y∈ofList key xs,key y=key x := by
  induction xs using List.reverseRecOn with
  | nil => cases h
  | append_singleton xs y ih =>
    rw [ofList_concat]
    by_cases hkey : key x=key y
    · exact ⟨y,mem_put_self y _,hkey.symm⟩
    · rcases List.mem_append.mp h with h|h
      · obtain ⟨z,hz,hsame⟩ := ih h
        exact ⟨z,mem_put_of_ne hz (hsame ▸ hkey),hsame⟩
      · rw [List.mem_singleton] at h
        exact absurd (by rw [h]) hkey

/-- Keys are stored once. -/
theorem nodup_ofList (xs : List α) : ((ofList key xs).map key).Nodup := by
  induction xs using List.reverseRecOn with
  | nil => exact List.nodup_nil
  | append_singleton xs x ih =>
    rw [ofList_concat]
    exact nodup_put ih

/-- Values that their keys determine are all stored. -/
theorem mem_ofList_iff {xs : List α} (hdet : ∀ x∈xs,∀ y∈xs,key x=key y → x=y) {x : α} :
    x∈ofList key xs ↔ x∈xs := by
  constructor
  · exact mem_of_mem_ofList
  · intro h
    obtain ⟨y,hy,hkey⟩ := @exists_mem_ofList _ _ _ key _ _ h
    rw [hdet x h y (mem_of_mem_ofList hy) hkey.symm]
    exact hy

end Hllm.OrderedDict
