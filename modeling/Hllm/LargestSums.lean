import Mathlib.Algebra.Order.BigOperators.Group.List
import Mathlib.Algebra.Order.Monoid.Canonical.Defs
import Mathlib.Data.List.Sort
import Mathlib.Data.List.Perm.Subperm

/-!
# Sums of the largest entries of a list

The sum of the `k` largest entries bounds every selection of at most `k`
entries, is attained by one, and is monotone in the list and in its entries.
These are the facts an admission rule needs that reserves for the worst
selection without knowing which one will be made.
-/

namespace Hllm.LargestSums

variable {M : Type*} [AddCommMonoid M] [LinearOrder M]

/-- The sum of the `k` largest entries, or of all if there are fewer. -/
def largestSum (k : ℕ) (l : List M) : M := ((l.insertionSort (·≥·)).take k).sum

/-- Some selection of at most `k` entries attains the sum. -/
theorem largestSum_attained (k : ℕ) (l : List M) :
    ∃ s : List M,s.Subperm l ∧ s.length ≤ k ∧ s.sum=largestSum k l :=
  ⟨(l.insertionSort (·≥·)).take k,
    (List.take_sublist _ _).subperm.trans (List.perm_insertionSort (·≥·) l).subperm,
    List.length_take_le _ _,rfl⟩

variable [IsOrderedAddMonoid M] [CanonicallyOrderedAdd M]

/-- Dropping the head of a descending list does not raise its leading sum. -/
theorem sum_take_tail_le {x : M} {l : List M} (h : (x::l).Pairwise (·≥·)) (k : ℕ) :
    (l.take k).sum≤((x::l).take k).sum := by
  cases k with
  | zero => simp
  | succ k =>
    rw [List.take_succ_cons,List.sum_cons,List.take_add_one,List.sum_append]
    cases hk : l[k]? with
    | none => simp [add_comm x]
    | some y =>
      have hy : y ≤ x := (List.pairwise_cons.mp h).1 y (List.mem_of_getElem? hk)
      simpa [add_comm x] using add_le_add_right hy _

/-- A descending list's leading sum bounds every sublist of that length. -/
theorem sum_le_sum_take_of_sublist {l s : List M} (h : l.Pairwise (·≥·)) (hs : s.Sublist l)
    {k : ℕ} (hk : s.length ≤ k) : s.sum≤(l.take k).sum := by
  induction hs generalizing k with
  | slnil => simp
  | cons x hs ih => exact (ih h.of_cons hk).trans (sum_take_tail_le h k)
  | cons_cons x hs ih =>
    cases k with
    | zero => simp at hk
    | succ k =>
      rw [List.take_succ_cons,List.sum_cons,List.sum_cons]
      exact add_le_add_right (ih h.of_cons (by simpa using hk)) x

/-- No selection of at most `k` entries exceeds the sum of the `k` largest. -/
theorem sum_le_largestSum {l s : List M} (hs : s.Subperm l) {k : ℕ} (hk : s.length ≤ k) :
    s.sum ≤ largestSum k l := by
  obtain ⟨t,ht,hsub⟩ := hs.trans (List.perm_insertionSort (·≥·) l).symm.subperm
  rw [←ht.sum_eq]
  exact sum_le_sum_take_of_sublist (List.pairwise_insertionSort (·≥·) l) hsub
    (ht.length_eq ▸ hk)

/-- More entries to choose from do not lower the sum. -/
theorem largestSum_le_of_subperm {l l' : List M} (h : l.Subperm l') (k : ℕ) :
    largestSum k l ≤ largestSum k l' := by
  obtain ⟨s,hs,hk,hsum⟩ := largestSum_attained k l
  rw [←hsum]
  exact sum_le_largestSum (hs.trans h) hk

/-- Raising every entry does not lower the sum. -/
theorem largestSum_map_le {α : Type*} {f g : α → M} {l : List α} (h : ∀ a∈l,f a ≤ g a) (k : ℕ) :
    largestSum k (l.map f) ≤ largestSum k (l.map g) := by
  obtain ⟨s,hs,hk,hsum⟩ := largestSum_attained k (l.map f)
  obtain ⟨r,hperm,hsub⟩ := hs
  obtain ⟨t,ht,rfl⟩ := List.sublist_map_iff.mp hsub
  have hlen : (t.map g).length ≤ k := by
    rw [List.length_map,←List.length_map (f:=f),hperm.length_eq]
    exact hk
  calc
    largestSum k (l.map f)=(t.map f).sum := by rw [hperm.sum_eq,hsum]
    _≤(t.map g).sum := List.sum_le_sum fun a ha => h a (ht.subset ha)
    _ ≤ largestSum k (l.map g) := sum_le_largestSum (ht.map g).subperm hlen

end Hllm.LargestSums
