import Mathlib.Algebra.Order.Field.Rat
import Mathlib.Algebra.Order.AbsoluteValue.Basic
import Mathlib.Order.Monotone.Basic
import Mathlib.Tactic.Linarith
import Mathlib.Tactic.Ring
import Mathlib.Tactic.Positivity
import Mathlib.Tactic.NormNum

/-!
# Binary interchange formats

A word has a sign, an exponent field and a mantissa field. Read as a natural
number, the word without its sign orders the magnitudes of the format, and
consecutive words are neighbours. Rounding to the nearest magnitude, ties to
the even mantissa, is a choice between two consecutive words.
-/

namespace Hllm.BinaryFormats

/-- Magnitude of a word without sign, in units of the smallest one. Exponent
zero has no implicit bit and the scale of exponent one. -/
def grid (mantissaBits word : ℕ) : ℕ :=
  ((if word/2^mantissaBits=0 then 0 else 2^mantissaBits)+word%2^mantissaBits)*
    2^(word/2^mantissaBits-1)

@[simp] theorem grid_zero (p : ℕ) : grid p 0=0 := by
  simp [grid]

/-- The next word is one unit in the last place away. -/
theorem grid_succ (p word : ℕ) : grid p (word+1)=grid p word+2^(word/2^p-1) := by
  have hpos : 0 < 2^p := Nat.two_pow_pos p
  set q := word/2^p with hq
  set r := word%2^p with hr
  have hword : word=2^p*q+r := (Nat.div_add_mod word (2^p)).symm
  have hlt : r < 2^p := Nat.mod_lt word hpos
  rcases Nat.lt_or_eq_of_le (Nat.succ_le_of_lt hlt) with hless|hcarry
  · have hdiv : (word+1)/2^p=q := by
      rw [hword,Nat.add_assoc,Nat.mul_add_div hpos,Nat.div_eq_of_lt hless,Nat.add_zero]
    have hmod : (word+1)%2^p=r+1 := by
      rw [hword,Nat.add_assoc,Nat.mul_add_mod,Nat.mod_eq_of_lt hless]
    rw [grid,grid,hdiv,hmod,←hq,←hr]
    ring
  · have hnext : word+1=2^p*(q+1) := by
      rw [hword,Nat.mul_add,Nat.mul_one]
      omega
    have hdiv : (word+1)/2^p=q+1 := by
      rw [hnext,Nat.mul_div_cancel_left _ hpos]
    have hmod : (word+1)%2^p=0 := by
      rw [hnext,Nat.mul_mod_right]
    rw [grid,grid,hdiv,hmod,←hq,←hr,if_neg (Nat.succ_ne_zero q),Nat.add_zero,Nat.add_sub_cancel]
    cases q with
    | zero =>
      rw [if_pos rfl,pow_zero]
      omega
    | succ q =>
      rw [if_neg (Nat.succ_ne_zero q),Nat.add_sub_cancel,←hcarry,Nat.succ_eq_add_one]
      ring

/-- Larger words have larger magnitudes. -/
theorem grid_strictMono (p : ℕ) : StrictMono (grid p) := by
  refine strictMono_nat_of_lt_succ fun word => ?_
  rw [grid_succ]
  exact Nat.lt_add_of_pos_right (Nat.two_pow_pos _)

section Rounding

variable (g : ℕ → ℚ) (x : ℚ)

/-- The nearer of two neighbours of a number, the even one of a tie. -/
def roundAt (q : ℕ) : ℕ :=
  if g q+g (q+1) < 2*x ∨ (g q+g (q+1)=2*x ∧ q%2=1) then q+1 else q

variable {g x}

/-- The nearer neighbour is nearest of all, and a tie goes to the even one. -/
theorem roundAt_nearest (hg : StrictMono g) {q : ℕ} (hlow : g q ≤ x) (hhigh : x < g (q+1))
    (n : ℕ) : |g (roundAt g x q)-x| ≤ |g n-x| ∧
      (|g (roundAt g x q)-x|=|g n-x| → n=roundAt g x q ∨ roundAt g x q%2=0) := by
  have hbelow : |g q-x|=x-g q := by
    rw [abs_sub_comm,abs_of_nonneg (sub_nonneg.mpr hlow)]
  have habove : |g (q+1)-x|=g (q+1)-x := abs_of_pos (sub_pos.mpr hhigh)
  have hside : (n ≤ q ∧ |g n-x|=x-g n ∧ g n ≤ g q) ∨
      (q+1 ≤ n ∧ |g n-x|=g n-x ∧ g (q+1) ≤ g n) := by
    rcases Nat.lt_or_ge q n with hn|hn
    · have hle := hg.monotone (Nat.succ_le_of_lt hn)
      exact .inr ⟨hn,abs_of_pos (sub_pos.mpr (hhigh.trans_le hle)),hle⟩
    · have hle := hg.monotone hn
      refine .inl ⟨hn,?_,hle⟩
      rw [abs_sub_comm,abs_of_nonneg (sub_nonneg.mpr (hle.trans hlow))]
  unfold roundAt
  split
  · rename_i hup
    rw [habove]
    rcases hside with ⟨hn,habs,hle⟩|⟨hn,habs,hle⟩
    · rw [habs]
      rcases hup with hup|⟨heq,hodd⟩
      · exact ⟨by linarith,fun h => absurd h (by linarith)⟩
      · exact ⟨by linarith,fun _ => .inr (by omega)⟩
    · rw [habs]
      refine ⟨by linarith,fun h => .inl (hg.injective ?_)⟩
      linarith
  · rename_i hdown
    rw [hbelow]
    rw [not_or,not_and,not_lt] at hdown
    rcases hside with ⟨hn,habs,hle⟩|⟨hn,habs,hle⟩
    · rw [habs]
      refine ⟨by linarith,fun h => .inl (hg.injective ?_)⟩
      linarith
    · rw [habs]
      refine ⟨by linarith [hdown.1],fun h => .inr ?_⟩
      have heq : g q+g (q+1)=2*x := by linarith [hdown.1]
      have hodd := hdown.2 heq
      omega

/-- Rounding passes an odd word from the midpoint to the next on. -/
theorem lt_roundAt_iff (hg : StrictMono g) {q : ℕ} (hlow : g q ≤ x) (hhigh : x < g (q+1))
    {k : ℕ} (hk : k%2=1) : k < roundAt g x q ↔ g k+g (k+1) ≤ 2*x := by
  have hstep := hg (Nat.lt_succ_self k)
  rcases Nat.lt_trichotomy q k with hlt|heq|hgt
  · have hle : roundAt g x q ≤ k := by
      unfold roundAt
      split <;> omega
    have hx := hhigh.trans_le (hg.monotone (Nat.succ_le_of_lt hlt))
    exact iff_of_false (Nat.not_lt.mpr hle) (by linarith)
  · subst heq
    unfold roundAt
    split
    · rename_i hup
      refine iff_of_true (Nat.lt_succ_self q) ?_
      rcases hup with hup|⟨heq,-⟩
      · exact hup.le
      · exact heq.le
    · rename_i hdown
      rw [not_or,not_and,not_lt] at hdown
      refine iff_of_false (Nat.lt_irrefl q) fun hle => ?_
      exact hdown.2 (le_antisymm hle hdown.1) hk
  · have hle : q ≤ roundAt g x q := by
      unfold roundAt
      split <;> omega
    have hx := (hg.monotone (Nat.succ_le_of_lt hgt)).trans hlow
    exact iff_of_true (Nat.lt_of_lt_of_le hgt hle) (by linarith)

end Rounding

/-- An interchange format. -/
structure Format where
  exponentBits : ℕ
  mantissaBits : ℕ

namespace Format

variable (f : Format) (n : ℕ)

/-- A word without its sign. -/
def word : ℕ := n%2^(f.exponentBits+f.mantissaBits)

/-- The sign of a word. -/
def negative : Bool := n/2^(f.exponentBits+f.mantissaBits)%2=1

/-- The exponent field of a word. -/
def exponent : ℕ := f.word n/2^f.mantissaBits

/-- The mantissa field of a word. -/
def mantissa : ℕ := f.word n%2^f.mantissaBits

/-- The exponent field of words that are no numbers. -/
def special : ℕ := 2^f.exponentBits-1

/-- A word that stands for a number. -/
def IsFinite : Prop := f.exponent n≠f.special

/-- An infinity. -/
def IsInfinite : Prop := f.exponent n=f.special ∧ f.mantissa n=0

/-- Not a number. -/
def IsNaN : Prop := f.exponent n=f.special ∧ f.mantissa n≠0

/-- The exponent of the smallest magnitude, negated. -/
def scale : ℕ := 2^(f.exponentBits-1)-1+f.mantissaBits-1

/-- The magnitude of words. -/
def magnitude (word : ℕ) : ℚ := grid f.mantissaBits word/2^f.scale

/-- The rational a finite word stands for. -/
def value : ℚ := if f.negative n then -f.magnitude (f.word n) else f.magnitude (f.word n)

/-- A finite word whose value is nearest to a number, and whose mantissa is
even if another value is as near. -/
def IsNearestEven (x : ℚ) : Prop :=
  f.IsFinite n ∧ ∀ k,f.IsFinite k → |f.value n-x| ≤ |f.value k-x| ∧
    (|f.value n-x|=|f.value k-x| → f.value k=f.value n ∨ f.mantissa n%2=0)

variable {f n}

/-- Magnitudes grow with the word. -/
theorem magnitude_strictMono : StrictMono f.magnitude := by
  intro a b hab
  have hcast : (grid f.mantissaBits a : ℚ) < grid f.mantissaBits b := by
    exact_mod_cast grid_strictMono f.mantissaBits hab
  exact div_lt_div_of_pos_right hcast (by positivity)

@[simp] theorem magnitude_zero : f.magnitude 0=0 := by
  rw [magnitude,grid_zero,Nat.cast_zero,zero_div]

/-- No magnitude is negative. -/
theorem magnitude_nonneg (word : ℕ) : 0 ≤ f.magnitude word := by
  rw [←f.magnitude_zero]
  exact magnitude_strictMono.monotone (Nat.zero_le word)

/-- The words below the first special one are finite. -/
theorem isFinite_iff : f.IsFinite n ↔ f.word n < f.special*2^f.mantissaBits := by
  have hpos : 0 < 2^f.mantissaBits := Nat.two_pow_pos _
  have hbound : f.word n/2^f.mantissaBits < 2^f.exponentBits := by
    rw [Nat.div_lt_iff_lt_mul hpos,←Nat.pow_add]
    exact Nat.mod_lt _ (Nat.two_pow_pos _)
  have htwo : 0 < 2^f.exponentBits := Nat.two_pow_pos _
  rw [IsFinite,exponent,←Nat.div_lt_iff_lt_mul hpos,special]
  omega

/-- The magnitude of a value. -/
theorem abs_value (n : ℕ) : |f.value n|=f.magnitude (f.word n) := by
  rw [value]
  split
  · rw [abs_neg,abs_of_nonneg (magnitude_nonneg _)]
  · exact abs_of_nonneg (magnitude_nonneg _)

/-- Distance of a value from a number of the same sign. -/
theorem abs_value_sub {x : ℚ} (hsign : x=if f.negative n then -|x| else |x|) :
    |f.value n-x|=|f.magnitude (f.word n)-(|x|)| := by
  rw [value]
  split
  · rename_i hneg
    rw [if_pos hneg] at hsign
    rw [hsign,abs_neg,abs_abs,neg_sub_neg,abs_sub_comm]
  · rename_i hneg
    rw [if_neg hneg] at hsign
    rw [hsign,abs_abs]

/-- Distance of a value from a number of the other sign. -/
theorem abs_value_sub_other {x : ℚ} (hsign : x=if f.negative n then |x| else -|x|) :
    |f.value n-x|=f.magnitude (f.word n)+|x| := by
  have hsum := add_nonneg (magnitude_nonneg (f:=f) (f.word n)) (abs_nonneg x)
  rw [value]
  split
  · rename_i hneg
    rw [if_pos hneg] at hsign
    rw [hsign,abs_abs,←neg_add',abs_neg,abs_of_nonneg hsum]
  · rename_i hneg
    rw [if_neg hneg] at hsign
    rw [hsign,abs_neg,abs_abs,sub_neg_eq_add,abs_of_nonneg hsum]

/-- A word rounded from a magnitude, with the sign of a number, is nearest to
the number. -/
theorem isNearestEven_of_round (hmantissa : 0 < f.mantissaBits) {x : ℚ} {q : ℕ}
    (hfinite : f.IsFinite n) (hsign : x=if f.negative n then -|x| else |x|)
    (hlow : f.magnitude q ≤ |x|) (hhigh : |x| < f.magnitude (q+1))
    (hround : f.word n=roundAt f.magnitude |x| q) : f.IsNearestEven n x := by
  have hnearest := roundAt_nearest (magnitude_strictMono (f:=f)) hlow hhigh
  rw [←hround] at hnearest
  have hparity : f.mantissa n%2=f.word n%2 := by
    rw [mantissa]
    exact Nat.mod_mod_of_dvd _ (dvd_pow_self 2 hmantissa.ne')
  refine ⟨hfinite,fun k _ => ?_⟩
  rw [abs_value_sub hsign]
  by_cases hsame : f.negative k=f.negative n
  · rw [abs_value_sub (n:=k) (by rw [hsame]; exact hsign)]
    obtain ⟨hle,htie⟩ := hnearest (f.word k)
    refine ⟨hle,fun heq => ?_⟩
    rcases htie heq with hword|heven
    · refine .inl ?_
      rw [value,value,hsame,hword]
    · exact .inr (hparity.trans heven)
  · have hother : x=if f.negative k then |x| else -|x| := by
      rw [Bool.eq_not_of_ne hsame]
      cases hneg : f.negative n with
      | false =>
        rw [hneg] at hsign
        exact hsign
      | true =>
        rw [hneg] at hsign
        exact hsign
    obtain ⟨hle,htie⟩ := hnearest 0
    rw [magnitude_zero,zero_sub,abs_neg,abs_abs] at hle htie
    have hk := magnitude_nonneg (f:=f) (f.word k)
    rw [abs_value_sub_other hother]
    refine ⟨by linarith,fun heq => ?_⟩
    rcases htie (by linarith) with hword|heven
    · refine .inl ?_
      have hzero : f.magnitude (f.word k)=0 := by
        rw [←hword,magnitude_zero,zero_sub,abs_neg,abs_abs] at heq
        linarith
      rw [value,value,hzero,←hword,magnitude_zero,neg_zero,ite_self,ite_self]
    · exact .inr (hparity.trans heven)

/-- Words of the same value have the same magnitude. -/
theorem word_eq_of_value {k : ℕ}
    (hvalue : f.value n=f.value k) : f.word n=f.word k := by
  have habs := congrArg (|·|) hvalue
  rw [abs_value,abs_value] at habs
  exact magnitude_strictMono.injective habs

end Format

end Hllm.BinaryFormats
