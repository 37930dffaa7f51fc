import Mathlib.Data.List.Basic
import Mathlib.Data.List.Perm.Basic
import Mathlib.Data.List.Induction

/-!
# Positions of a list

Replacing or removing the element at a position leaves the others as they are,
up to order. A scan for the smallest element finds the first one that no other
precedes.
-/

namespace Hllm.ListPositions

variable {α : Type*}

/-- A list is the element at a position and others that a replacement keeps. -/
theorem exists_rest {l : List α} {i : ℕ} {a : α} (h : l[i]?=some a) :
    ∃ rest,l.Perm (a::rest) ∧ (∀ b,(l.set i b).Perm (b::rest)) ∧ (l.eraseIdx i).Perm rest := by
  induction l generalizing i with
  | nil => cases h
  | cons x l ih =>
    cases i with
    | zero =>
      cases h
      exact ⟨l,List.Perm.refl _,fun b => List.Perm.refl _,List.Perm.refl _⟩
    | succ i =>
      obtain ⟨rest,hall,hset,herase⟩ := ih h
      refine ⟨x::rest,(hall.cons x).trans (List.Perm.swap a x rest),fun b => ?_,herase.cons x⟩
      exact ((hset b).cons x).trans (List.Perm.swap b x rest)

/-- The smallest element of a list and its position, as `std::min_element`
finds it. -/
def minElement (before : α → α → Bool) : List α → Option (ℕ×α)
  | [] => none
  | x::xs => some ((xs.zipIdx 1).foldl (fun smallest y =>
      if before y.1 smallest.2 then (y.2,y.1) else smallest) (0,x))

/-- The scan finds an element that none precedes, if preceding is a strict order. -/
theorem minElement_spec {before : α → α → Bool} (hirrefl : ∀ a,before a a=false)
    (htrans : ∀ a b c,before a b=true → before b c=true → before a c=true) {l : List α} {k : ℕ}
    {a : α} (h : minElement before l=some (k,a)) :
    l[k]?=some a ∧ ∀ b∈l,before b a=false := by
  induction l using List.reverseRecOn generalizing k a with
  | nil => cases h
  | append_singleton xs last ih =>
    cases xs with
    | nil =>
      cases h
      refine ⟨rfl,fun b hb => ?_⟩
      rw [List.mem_singleton.mp hb]
      exact hirrefl _
    | cons x xs =>
      obtain ⟨⟨i,s⟩,hs⟩ : ∃ s,minElement before (x::xs)=some s := ⟨_,rfl⟩
      obtain ⟨hfound,hleast⟩ := ih hs
      have hin : i < (x::xs).length := (List.getElem?_eq_some_iff.mp hfound).1
      have hstep : minElement before ((x::xs)++[last])=
          some (if before last s then (xs.length+1,last) else (i,s)) := by
        have hsmallest := Option.some.inj hs
        rw [List.cons_append,minElement,List.zipIdx_append,List.foldl_append,hsmallest,
          Nat.add_comm 1]
        rfl
      rw [hstep,Option.some.injEq] at h
      split at h
      · rename_i hless
        cases h
        refine ⟨List.getElem?_concat_length,fun b hb => ?_⟩
        rcases List.mem_append.mp hb with hb|hb
        · rw [←Bool.not_eq_true]
          intro hbefore
          have hwrong := htrans b last s hbefore hless
          rw [hleast b hb] at hwrong
          cases hwrong
        · rw [List.mem_singleton.mp hb]
          exact hirrefl last
      · rename_i hless
        cases h
        refine ⟨?_,fun b hb => ?_⟩
        · rw [List.getElem?_append_left hin]
          exact hfound
        · rcases List.mem_append.mp hb with hb|hb
          · exact hleast b hb
          · rw [List.mem_singleton.mp hb]
            exact Bool.not_eq_true _ ▸ hless

/-- The scan of a list with elements finds one. -/
theorem minElement_ne_none {before : α → α → Bool} {l : List α} (h : l≠[]) :
    minElement before l≠none := by
  cases l with
  | nil => exact absurd rfl h
  | cons x xs => exact Option.some_ne_none _

end Hllm.ListPositions
