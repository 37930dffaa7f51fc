import Mathlib.Data.List.Basic
import Mathlib.Algebra.BigOperators.Group.List.Basic

/-!
# Rows of one width

A list cut into rows of equal width. Joining the rows of a list gives it back,
and cutting joined rows gives the rows.
-/

namespace Hllm.FixedRows

variable {α : Type*}

/-- The row of a list at a place. -/
def row (width : ℕ) (xs : List α) (i : ℕ) : List α := (xs.drop (i*width)).take width

/-- The first rows of a list. -/
def rows (width count : ℕ) (xs : List α) : List (List α) := (List.range count).map (row width xs)

/-- The first row and the rows of the rest. -/
theorem rows_succ (width count : ℕ) (xs : List α) :
    rows width (count+1) xs=xs.take width::rows width count (xs.drop width) := by
  rw [rows,List.range_succ_eq_map,List.map_cons,List.map_map,rows]
  congr 1
  · rw [row,Nat.zero_mul,List.drop_zero]
  · refine List.map_congr_left fun i _ => ?_
    change row width xs (i+1)=_
    rw [row,row,List.drop_drop,Nat.succ_mul,Nat.add_comm]

/-- There are as many rows as asked for. -/
theorem length_rows (width count : ℕ) (xs : List α) : (rows width count xs).length=count := by
  rw [rows,List.length_map,List.length_range]

/-- The rows of a list of that many rows join to the list, and all are as wide. -/
theorem flatten_rows {width count : ℕ} {xs : List α} (h : xs.length=count*width) :
    (rows width count xs).flatten=xs ∧ ∀ r∈rows width count xs,r.length=width := by
  induction count generalizing xs with
  | zero =>
    rw [Nat.zero_mul] at h
    rw [List.length_eq_zero_iff.mp h]
    exact ⟨rfl,nofun⟩
  | succ count ih =>
    rw [Nat.succ_mul] at h
    have hrest : (xs.drop width).length=count*width := by
      rw [List.length_drop]
      omega
    obtain ⟨hjoined,hwide⟩ := ih hrest
    rw [rows_succ,List.flatten_cons,hjoined,List.take_append_drop]
    refine ⟨rfl,fun r hr => ?_⟩
    rcases List.mem_cons.mp hr with rfl|hr
    · rw [List.length_take]
      omega
    · exact hwide r hr

/-- The length of joined rows. -/
theorem length_flatten {width : ℕ} {rs : List (List α)} (h : ∀ r∈rs,r.length=width) :
    rs.flatten.length=rs.length*width := by
  rw [List.length_flatten,List.map_congr_left h,List.map_const',List.sum_replicate_nat]

/-- The rows of joined rows. -/
theorem rows_flatten {width : ℕ} {rs : List (List α)} (h : ∀ r∈rs,r.length=width) :
    rows width rs.length rs.flatten=rs := by
  induction rs with
  | nil => rfl
  | cons r rs ih =>
    have hr := h r List.mem_cons_self
    rw [List.length_cons,rows_succ,List.flatten_cons,←hr,List.take_left,List.drop_left,hr,
      ih fun r' hr' => h r' (List.mem_cons_of_mem r hr')]

end Hllm.FixedRows
