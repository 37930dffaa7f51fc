import Hllm.MemoryAccounting

/-!
# Sizes computed with checks

`checked_add` and `checked_multiply` of the runtime, for machine words and for
sizes that a model keeps as natural numbers. Both forms throw alike and give
the same number.
-/

namespace Hllm.CheckedSizes

open MemoryAccounting

/-- What a sum or a product throws that does not fit a word. -/
def sizeOverflow : Error := ⟨.resourceExhausted,"stage memory size overflow"⟩

/-- `checked_multiply` -/
def checkedMultiply (a b : UInt64) : Except Error UInt64 :=
  if b≠0 ∧ sizeMax/b < a then .error sizeOverflow else .ok (a*b)

/-- `checked_add` of sizes kept as numbers. -/
def checkedSum (a b : ℕ) : Except Error ℕ :=
  if 2^64-1-a < b then .error sizeOverflow else .ok (a+b)

/-- `checked_multiply` of sizes kept as numbers. -/
def checkedProduct (a b : ℕ) : Except Error ℕ :=
  if b≠0 ∧ (2^64-1)/b < a then .error sizeOverflow else .ok (a*b)

/-- Where the division of the check admits a product. -/
theorem admits_iff {a b : ℕ} : ¬(b≠0 ∧ (2^64-1)/b < a) ↔ a*b < 2^64 := by
  rcases Nat.eq_zero_or_pos b with rfl|hb
  · rw [Nat.mul_zero]
    exact ⟨fun _ => by omega,fun _ h => absurd rfl h.1⟩
  · rw [not_and,Nat.not_lt,Nat.le_div_iff_mul_le hb]
    constructor
    · intro h
      have hle := h (by omega)
      omega
    · intro h _
      omega

/-- A checked product is given when it fits a word. -/
theorem checkedProduct_iff {a b c : ℕ} : checkedProduct a b=.ok c ↔ a*b < 2^64 ∧ c=a*b := by
  unfold checkedProduct
  rw [check_iff,admits_iff]
  refine and_congr_right fun _ => ?_
  exact ⟨fun h => (Except.ok.inj h).symm,fun h => by rw [h]⟩

/-- So is a checked sum. -/
theorem checkedSum_iff {a b c : ℕ} (ha : a < 2^64) :
    checkedSum a b=.ok c ↔ a+b < 2^64 ∧ c=a+b := by
  unfold checkedSum
  rw [check_iff]
  refine and_congr (by omega) ?_
  exact ⟨fun h => (Except.ok.inj h).symm,fun h => by rw [h]⟩

/-- A value is given whichever way a throw is told. -/
theorem mapError_ok_iff {ε ε' α : Type} {x : Except ε α} {f : ε → ε'} {a : α} :
    x.mapError f=.ok a ↔ x=.ok a := by
  cases x with
  | error e => exact iff_of_false (by intro h; cases h) (by intro h; cases h)
  | ok b =>
    change Except.ok b=Except.ok a ↔ _
    rw [Except.ok.injEq,Except.ok.injEq]

/-- A word is given whenever its number is. -/
theorem ok_iff_of_toNat {x : Except Error UInt64} {y : Except Error ℕ}
    (h : x.map UInt64.toNat=y) {c : UInt64} : x=.ok c ↔ y=.ok c.toNat := by
  rw [←h]
  cases x with
  | error e => exact iff_of_false (by intro h; cases h) (by intro h; cases h)
  | ok a =>
    change _ ↔ Except.ok a.toNat=Except.ok c.toNat
    rw [Except.ok.injEq,Except.ok.injEq,UInt64.toNat_inj]

/-- A product of words is checked as that of their numbers. -/
theorem checkedMultiply_toNat (a b : UInt64) :
    (checkedMultiply a b).map UInt64.toNat=checkedProduct a.toNat b.toNat := by
  have hmax : sizeMax.toNat=2^64-1 := by decide
  have hcheck : (b≠0 ∧ sizeMax/b < a) ↔ b.toNat≠0 ∧ (2^64-1)/b.toNat < a.toNat := by
    rw [UInt64.lt_iff_toNat_lt,UInt64.toNat_div,hmax,ne_eq,ne_eq,←UInt64.toNat_inj,
      UInt64.toNat_zero]
  unfold checkedMultiply checkedProduct
  by_cases hover : b.toNat≠0 ∧ (2^64-1)/b.toNat < a.toNat
  · rw [if_pos (hcheck.mpr hover),if_pos hover]
    rfl
  · rw [if_neg (mt hcheck.mp hover),if_neg hover]
    change Except.ok (a*b).toNat=_
    rw [UInt64.toNat_mul,Nat.mod_eq_of_lt (admits_iff.mp hover)]

/-- So is a sum. -/
theorem checkedAdd_toNat (a b : UInt64) :
    (checkedAdd a b).map UInt64.toNat=checkedSum a.toNat b.toNat := by
  have hmax : sizeMax.toNat=2^64-1 := by decide
  have ha := a.toNat_lt
  have hle : a ≤ sizeMax := by
    rw [UInt64.le_iff_toNat_le]
    omega
  have hcheck : sizeMax-a < b ↔ 2^64-1-a.toNat < b.toNat := by
    rw [UInt64.lt_iff_toNat_lt,UInt64.toNat_sub_of_le _ _ hle,hmax]
  unfold checkedAdd addOrThrow checkedSum
  by_cases hover : 2^64-1-a.toNat < b.toNat
  · rw [if_pos (hcheck.mpr hover),if_pos hover]
    rfl
  · rw [if_neg (mt hcheck.mp hover),if_neg hover]
    change Except.ok (a+b).toNat=_
    rw [UInt64.toNat_add,Nat.mod_eq_of_lt (by omega)]

/-- A checked product of words is exact. -/
theorem checkedMultiply_iff {a b c : UInt64} :
    checkedMultiply a b=.ok c ↔ c.toNat=a.toNat*b.toNat := by
  have hc := c.toNat_lt
  rw [ok_iff_of_toNat (checkedMultiply_toNat a b),checkedProduct_iff]
  exact ⟨fun h => h.2,fun h => ⟨h ▸ hc,h⟩⟩

/-- A checked sum of words is exact. -/
theorem checkedAdd_iff {a b c : UInt64} :
    checkedAdd a b=.ok c ↔ c.toNat=a.toNat+b.toNat := by
  have hc := c.toNat_lt
  rw [ok_iff_of_toNat (checkedAdd_toNat a b),checkedSum_iff a.toNat_lt]
  exact ⟨fun h => h.2,fun h => ⟨h ▸ hc,h⟩⟩

end Hllm.CheckedSizes
