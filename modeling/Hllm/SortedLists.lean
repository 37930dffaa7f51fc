import Mathlib.Data.List.Sort

/-!
# Sweeps and searches over sorted lists

A sweep goes through ranges in the order of their starts and compares every
start with the end before it. It accepts exactly when the ranges are compatible
and no empty range comes after a nonempty one with the same start; only the
latter depends on how the sort breaks ties. A lower bound search finds the first
position of a partitioned list whose value is not below what is asked for.
-/

namespace Hllm.SortedLists

section Sweeps

variable {α : Type} (start finish : α → ℕ) (limit : ℕ)

/-- Every range starts no earlier than the one before it ends, and ends within
the limit. -/
def sweeps : ℕ → List α → Bool
  | _,[] => true
  | previous,x::xs =>
    decide (previous ≤ start x) && decide (finish x ≤ limit) && sweeps (finish x) xs

/-- Nonempty ranges are disjoint, and an empty one is not strictly inside another. -/
def Compatible (a b : α) : Prop :=
  (start a < finish a → start b < finish b → finish a ≤ start b ∨ finish b ≤ start a) ∧
  (start b=finish b → ¬(start a < start b ∧ start b < finish a)) ∧
  (start a=finish a → ¬(start b < start a ∧ start a < finish b))

/-- A nonempty range starts where an empty one does. -/
def Ties (a b : α) : Prop := start a=start b ∧ start a < finish a ∧ start b=finish b

variable {start finish limit} {xs ys : List α}

/-- Compatibility does not depend on the order. -/
theorem compatible_symm {a b : α} (h : Compatible start finish a b) :
    Compatible start finish b a :=
  ⟨fun hb ha => (h.1 ha hb).symm,h.2.2,h.2.1⟩

/-- Two ranges in order are one after the other when they are compatible and do
not tie. -/
theorem after_iff {a b : α} (ha : start a ≤ finish a) (hb : start b ≤ finish b)
    (hab : start a ≤ start b) :
    finish a ≤ start b ↔ Compatible start finish a b ∧ ¬Ties start finish a b := by
  constructor
  · intro h
    refine ⟨⟨fun _ _ => .inl h,fun _ hinside => ?_,fun _ hinside => ?_⟩,fun hties => ?_⟩
    · omega
    · omega
    · obtain ⟨hsame,hnonempty,-⟩ := hties
      omega
  · rintro ⟨hcompatible,hties⟩
    by_contra hnot
    have hnonempty : start a < finish a := by omega
    rcases Nat.lt_or_eq_of_le hb with hfull|hempty
    · rcases hcompatible.1 hnonempty hfull with h|h
      · exact hnot h
      · omega
    · rcases Nat.lt_or_eq_of_le hab with hlater|hsame
      · exact hcompatible.2.1 hempty ⟨hlater,by omega⟩
      · exact hties ⟨hsame,hnonempty,hempty⟩

/-- A sweep accepts when every range is after all those before it. -/
theorem sweeps_iff (hordered : ∀ x∈xs,start x ≤ finish x) {previous : ℕ} :
    sweeps start finish limit previous xs=true ↔
      (∀ x∈xs,previous ≤ start x ∧ finish x ≤ limit) ∧
        xs.Pairwise fun a b => finish a ≤ start b := by
  induction xs generalizing previous with
  | nil => exact ⟨fun _ => ⟨fun x hx => absurd hx List.not_mem_nil,.nil⟩,fun _ => rfl⟩
  | cons x xs ih =>
    have hx := hordered x List.mem_cons_self
    unfold sweeps
    rw [Bool.and_eq_true,Bool.and_eq_true,decide_eq_true_eq,decide_eq_true_eq,
      ih fun y hy => hordered y (.tail _ hy),List.pairwise_cons]
    constructor
    · rintro ⟨⟨hprevious,hlimit⟩,hall,hpairs⟩
      refine ⟨fun y hy => ?_,fun y hy => (hall y hy).1,hpairs⟩
      rcases List.mem_cons.mp hy with rfl|hy
      · exact ⟨hprevious,hlimit⟩
      · have hafter := (hall y hy).1
        exact ⟨by omega,(hall y hy).2⟩
    · rintro ⟨hall,hafter,hpairs⟩
      obtain ⟨hprevious,hlimit⟩ := hall x List.mem_cons_self
      exact ⟨⟨hprevious,hlimit⟩,fun y hy => ⟨hafter y hy,(hall y (.tail _ hy)).2⟩,hpairs⟩

/-- A sweep in the order of the starts. -/
theorem sweeps_sorted_iff (hordered : ∀ x∈xs,start x ≤ finish x)
    (hsorted : xs.Pairwise fun a b => start a ≤ start b) :
    sweeps start finish limit 0 xs=true ↔ (∀ x∈xs,finish x ≤ limit) ∧
      xs.Pairwise (Compatible start finish) ∧ xs.Pairwise fun a b => ¬Ties start finish a b := by
  have hpairs : (xs.Pairwise fun a b => finish a ≤ start b) ↔
      xs.Pairwise (Compatible start finish) ∧
        xs.Pairwise fun a b => ¬Ties start finish a b := by
    rw [←List.pairwise_and_iff]
    constructor
    · intro hafter
      refine (hafter.and hsorted).imp_of_mem fun {a b} ha hb hab => ?_
      exact (after_iff (hordered a ha) (hordered b hb) hab.2).mp hab.1
    · intro hcompatible
      refine (hcompatible.and hsorted).imp_of_mem fun {a b} ha hb hab => ?_
      exact (after_iff (hordered a ha) (hordered b hb) hab.2).mpr hab.1
  rw [sweeps_iff hordered,hpairs]
  refine and_congr_left fun _ => forall₂_congr fun x _ => ?_
  exact and_iff_right (Nat.zero_le _)

/-- Some order of the starts puts a nonempty range before an empty one that
starts where it does. -/
theorem exists_tied_order {a b : α} (hab : (a::b::ys).Perm xs) (hties : Ties start finish a b) :
    ∃ zs : List α,zs.Perm xs ∧ (zs.Pairwise fun a b => start a ≤ start b) ∧
      ¬zs.Pairwise fun a b => ¬Ties start finish a b := by
  let r : α → α → Prop := fun a b => start a ≤ start b
  have htotal : Std.Total r := ⟨fun a b => Nat.le_total _ _⟩
  have htrans : IsTrans α r := ⟨fun a b c hab hbc => Nat.le_trans hab hbc⟩
  refine ⟨(a::b::ys).insertionSort r,(List.perm_insertionSort r _).trans hab,
    List.pairwise_insertionSort r _,fun hpairs => ?_⟩
  have hpair : [a,b].Pairwise r := List.pairwise_pair.mpr (Nat.le_of_eq hties.1)
  have hsub : [a,b].Sublist ((a::b::ys).insertionSort r) :=
    List.sublist_insertionSort hpair (List.sublist_append_left [a,b] ys)
  exact List.pairwise_pair.mp (hpairs.sublist hsub) hties

end Sweeps

section Search

variable {α : Type} [LinearOrder α]

/-- `std::lower_bound`: halve the range that is left, which begins at `first`. -/
def lowerBound (values : List α) (requested : α) : ℕ → ℕ → ℕ → ℕ
  | 0,first,_ => first
  | fuel+1,first,length =>
    if length=0 then first
    else
      let half := length/2
      if values[first+half]?.any (fun v => decide (v < requested))=true then
        lowerBound values requested fuel (first+half+1) (length-half-1)
      else lowerBound values requested fuel first half

variable {values : List α} {requested : α}

/-- Everything before the position that is found is below the requested value,
and nothing from there on. -/
theorem lowerBound_spec (hsorted : values.Pairwise (· < ·)) {fuel first length : ℕ}
    (hfuel : length ≤ fuel) (hend : first+length ≤ values.length)
    (hbelow : ∀ i (hi : i < values.length),i < first → values[i] < requested)
    (habove : ∀ i (hi : i < values.length),first+length ≤ i → requested ≤ values[i]) :
    ∀ i (hi : i < values.length),
      (values[i] < requested ↔ i < lowerBound values requested fuel first length) := by
  induction fuel generalizing first length with
  | zero =>
    intro i hi
    have hzero : length=0 := by omega
    unfold lowerBound
    refine ⟨fun hlt => ?_,hbelow i hi⟩
    by_contra hnot
    exact absurd hlt (not_lt.mpr (habove i hi (by omega)))
  | succ fuel ih =>
    unfold lowerBound
    by_cases hempty : length=0
    · rw [if_pos hempty]
      intro i hi
      refine ⟨fun hlt => ?_,hbelow i hi⟩
      by_contra hnot
      exact absurd hlt (not_lt.mpr (habove i hi (by omega)))
    · rw [if_neg hempty]
      have hmiddle : first+length/2 < values.length := by omega
      have hget : values[first+length/2]?=some values[first+length/2] :=
        List.getElem?_eq_getElem hmiddle
      have hordered : ∀ i j (hi : i < values.length) (hj : j < values.length),i ≤ j →
          values[i] ≤ values[j] := by
        intro i j hi hj hij
        rcases Nat.lt_or_eq_of_le hij with hlt|rfl
        · exact le_of_lt (List.pairwise_iff_getElem.mp hsorted i j hi hj hlt)
        · exact le_refl _
      simp only [hget,Option.any_some,decide_eq_true_eq]
      by_cases hlt : values[first+length/2] < requested
      · rw [if_pos hlt]
        refine ih (by omega) (by omega) (fun i hi hfirst => ?_) (fun i hi hlast => ?_)
        · exact lt_of_le_of_lt (hordered i (first+length/2) hi hmiddle (by omega)) hlt
        · exact habove i hi (by omega)
      · rw [if_neg hlt]
        refine ih (by omega) (by omega) hbelow (fun i hi hlast => ?_)
        exact le_trans (not_lt.mp hlt) (hordered (first+length/2) i hmiddle hi hlast)

/-- A search finds a value exactly where it is. -/
theorem lowerBound_found (hsorted : values.Pairwise (· < ·)) {i : ℕ} :
    (lowerBound values requested values.length 0 values.length=i ∧ values[i]?=some requested) ↔
      values[i]?=some requested := by
  refine ⟨fun h => h.2,fun h => ⟨?_,h⟩⟩
  obtain ⟨hi,hvalue⟩ := List.getElem?_eq_some_iff.mp h
  have hspec := @lowerBound_spec α _ values requested hsorted values.length 0 values.length
    (Nat.le_refl _) (by omega) (fun i hi h => absurd h (Nat.not_lt_zero i))
    (fun i hi h => absurd hi (by omega))
  have hat := hspec i hi
  rw [hvalue] at hat
  have hnot : ¬i < lowerBound values requested values.length 0 values.length :=
    fun hlt => absurd (hat.mpr hlt) (lt_irrefl requested)
  rcases Nat.lt_or_eq_of_le (Nat.le_of_not_lt hnot) with hlt|heq
  · have hearlier := hspec _ (by omega : lowerBound values requested values.length 0
      values.length < values.length)
    have hbelow := List.pairwise_iff_getElem.mp hsorted _ i (by omega) hi hlt
    rw [hvalue] at hbelow
    exact absurd (hearlier.mp hbelow) (lt_irrefl _)
  · exact heq

end Search

end Hllm.SortedLists
