import Mathlib.Algebra.Order.Group.Defs
import Mathlib.Algebra.BigOperators.Group.List.Basic
import Mathlib.Algebra.Order.BigOperators.Group.List
import Mathlib.Order.Bounds.Basic
import Mathlib.Tactic.Abel

/-!
# Cumulative weights

Positive weights cut the line from zero to their total into half-open
intervals, one for each element of a list in order. Every point below the
total lies in exactly one of them, and subtracting weights from the left
finds it.
-/

namespace Hllm.CumulativeWeights

variable {α K : Type*} [AddCommGroup K]

variable [LinearOrder K] [IsOrderedAddMonoid K] {weight : α → K} {xs : List α}

end Hllm.CumulativeWeights
