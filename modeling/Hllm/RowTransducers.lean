import Mathlib.Data.List.Basic

/-!
# Stacks of row transducers

A transducer reads rows one after another, keeps a state and writes one row
for each. A stack runs all rows through its first transducer, the results
through the second, and so on. However the rows are cut into chunks, states
and rows come out the same.
-/

namespace Hllm.RowTransducers

variable {σ α β : Type*}

/-- All rows through one transducer. -/
def scan (f : σ → α → σ×β) : σ → List α → σ×List β
  | s,[] => (s,[])
  | s,x::xs =>
    let first := f s x
    let rest := scan f first.1 xs
    (rest.1,first.2::rest.2)

variable {f : σ → α → σ×β}

/-- One row is written for each row read. -/
theorem scan_length (s : σ) (xs : List α) : (scan f s xs).2.length=xs.length := by
  induction xs generalizing s with
  | nil => rfl
  | cons x xs ih => simp [scan,ih]

/-- Rows in two parts. -/
theorem scan_append (s : σ) (xs ys : List α) :
    scan f s (xs++ys)=
      ((scan f (scan f s xs).1 ys).1,(scan f s xs).2++(scan f (scan f s xs).1 ys).2) := by
  induction xs generalizing s with
  | nil => rfl
  | cons x xs ih => simp [scan,ih]

/-- All rows through a stack with the given states. -/
def stack : List (σ → α → σ×α) → List σ → List α → List σ×List α
  | f::fs,s::states,rows =>
    let first := scan f s rows
    let rest := stack fs states first.2
    (first.1::rest.1,rest.2)
  | _,states,rows => (states,rows)

/-- One row is written for each row read. -/
theorem stack_length (fs : List (σ → α → σ×α)) (states : List σ) (rows : List α) :
    (stack fs states rows).2.length=rows.length := by
  induction fs generalizing states rows with
  | nil => cases states <;> rfl
  | cons f fs ih =>
    cases states with
    | nil => rfl
    | cons s states => rw [stack,ih,scan_length]

/-- Rows in two parts: the second part starts with the states the first left. -/
theorem stack_append (fs : List (σ → α → σ×α)) (states : List σ) (xs ys : List α) :
    stack fs states (xs++ys)=
      ((stack fs (stack fs states xs).1 ys).1,
        (stack fs states xs).2++(stack fs (stack fs states xs).1 ys).2) := by
  induction fs generalizing states xs ys with
  | nil => cases states <;> rfl
  | cons f fs ih =>
    cases states with
    | nil => rfl
    | cons s states => simp only [stack,scan_append,ih]

end Hllm.RowTransducers
