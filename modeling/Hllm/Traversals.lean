import Mathlib.Data.List.Basic
import Mathlib.Data.List.Perm.Basic

/-!
# Traversals that may fail

A list traversed by a fallible function succeeds when every element does. What
it gives is determined element by element, so it follows the order of the list
and nothing else.
-/

namespace Hllm.Traversals

variable {α β ε : Type} {f : α → Except ε β}

/-- A traversal succeeds with what every element gives. -/
theorem mapM_ok_iff {xs : List α} {ys : List β} :
    xs.mapM f=.ok ys ↔ xs.map f=ys.map .ok := by
  induction xs generalizing ys with
  | nil =>
    cases ys with
    | nil => exact ⟨fun _ => rfl,fun _ => rfl⟩
    | cons y ys => exact ⟨nofun,nofun⟩
  | cons x xs ih =>
    rw [List.mapM_cons,List.map_cons]
    constructor
    · intro h
      cases hx : f x with
      | error e =>
        rw [hx] at h
        cases h
      | ok y =>
        rw [hx] at h
        cases hxs : xs.mapM f with
        | error e =>
          rw [hxs] at h
          cases h
        | ok zs =>
          rw [hxs] at h
          cases h
          rw [List.map_cons,ih.mp hxs]
    · intro h
      cases ys with
      | nil => cases h
      | cons y ys =>
        rw [List.map_cons,List.cons.injEq] at h
        rw [h.1,ih.mpr h.2]
        rfl

/-- Traversals of the same elements in another order. -/
theorem mapM_perm {xs xs' : List α} {ys ys' : List β} (h : xs.Perm xs') (hys : xs.mapM f=.ok ys)
    (hys' : xs'.mapM f=.ok ys') : ys.Perm ys' := by
  have hmap := h.map f
  rw [mapM_ok_iff.mp hys,mapM_ok_iff.mp hys'] at hmap
  exact (List.map_perm_map_iff fun _ _ => Except.ok.inj).mp hmap

/-- Every result of a traversal comes from an element. -/
theorem exists_of_mem_result {xs : List α} {ys : List β} {y : β} (h : xs.mapM f=.ok ys)
    (hy : y∈ys) : ∃ x∈xs,f x=.ok y := by
  have hmem : Except.ok y∈xs.map f := by
    rw [mapM_ok_iff.mp h]
    exact List.mem_map_of_mem hy
  obtain ⟨x,hx,hfx⟩ := List.mem_map.mp hmem
  exact ⟨x,hx,hfx⟩

/-- Every element of a traversal has a result. -/
theorem exists_result_of_mem {xs : List α} {ys : List β} {x : α} (h : xs.mapM f=.ok ys)
    (hx : x∈xs) : ∃ y∈ys,f x=.ok y := by
  have hmem : f x∈ys.map Except.ok := by
    rw [←mapM_ok_iff.mp h]
    exact List.mem_map_of_mem hx
  obtain ⟨y,hy,hfx⟩ := List.mem_map.mp hmem
  exact ⟨y,hy,hfx.symm⟩

/-- What is read off the results of a traversal is read off what was traversed. -/
theorem map_of_mapM {γ : Type} {xs : List α} {ys : List β} {g : β → γ} {k : α → γ}
    (h : xs.mapM f=.ok ys) (hread : ∀ x y,f x=.ok y → g y=k x) : ys.map g=xs.map k := by
  have hmap := mapM_ok_iff.mp h
  clear h
  induction xs generalizing ys with
  | nil =>
    cases ys with
    | nil => rfl
    | cons y ys => cases hmap
  | cons x xs ih =>
    cases ys with
    | nil => cases hmap
    | cons y ys =>
      rw [List.map_cons,List.map_cons,List.cons.injEq] at hmap
      rw [List.map_cons,List.map_cons,hread x y hmap.1,ih hmap.2]

/-- A traversal succeeds when every element does. -/
theorem mapM_exists_iff {xs : List α} :
    (∃ ys,xs.mapM f=.ok ys) ↔ ∀ x∈xs,∃ y,f x=.ok y := by
  constructor
  · rintro ⟨ys,hys⟩ x hx
    obtain ⟨y,-,hy⟩ := exists_result_of_mem hys hx
    exact ⟨y,hy⟩
  · intro h
    induction xs with
    | nil => exact ⟨[],rfl⟩
    | cons x xs ih =>
      obtain ⟨y,hy⟩ := h x List.mem_cons_self
      obtain ⟨ys,hys⟩ := ih fun x hx => h x (.tail _ hx)
      refine ⟨y::ys,mapM_ok_iff.mpr ?_⟩
      rw [List.map_cons,List.map_cons,hy,mapM_ok_iff.mp hys]

/-- A traversal of elements that all succeed gives their results in order. -/
theorem mapM_ok_of {xs : List α} {g : α → β} (h : ∀ x∈xs,f x=.ok (g x)) :
    xs.mapM f=.ok (xs.map g) := by
  rw [mapM_ok_iff,List.map_map]
  exact List.map_congr_left h

/-- A list of checks passes when every check does. -/
theorem forM_ok_iff {check : α → Except ε Unit} {xs : List α} :
    xs.forM check=.ok () ↔ ∀ x∈xs,check x=.ok () := by
  induction xs with
  | nil => exact ⟨fun _ x hx => absurd hx List.not_mem_nil,fun _ => rfl⟩
  | cons x xs ih =>
    change (check x >>= fun _ => xs.forM check)=.ok () ↔ _
    rw [List.forall_mem_cons]
    cases hx : check x with
    | error e => exact ⟨nofun,nofun⟩
    | ok u =>
      rw [←ih]
      exact ⟨fun h => ⟨rfl,h⟩,fun h => h.2⟩

/-- A fold gives what its first step and the fold of the rest give. -/
theorem foldlM_cons_ok_iff {g : β → α → Except ε β} {x : α} {xs : List α} {b c : β} :
    (x::xs).foldlM g b=.ok c ↔ ∃ middle,g b x=.ok middle ∧ xs.foldlM g middle=.ok c := by
  rw [List.foldlM_cons]
  cases hx : g b x with
  | error e =>
    constructor
    · intro h
      cases h
    · rintro ⟨middle,hmiddle,-⟩
      cases hmiddle
  | ok middle => exact ⟨fun h => ⟨middle,rfl,h⟩,fun ⟨_,hmiddle,h⟩ => Except.ok.inj hmiddle ▸ h⟩

end Hllm.Traversals
