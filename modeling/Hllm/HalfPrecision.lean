import Hllm.BinaryFormats
import Hllm.WeightChunks
import Mathlib.Data.Nat.Bitwise

/-!
# Conversion between halves and floats

Both conversions act on bit patterns. Widening is exact. Narrowing rounds to
the nearest half and ties to the even mantissa, through the subnormal range and
up to infinity.
-/

namespace Hllm.HalfPrecision

open BinaryFormats WeightChunks

/-- Binary16. -/
def half : Format := ⟨5,10⟩

/-- Binary32. -/
def single : Format := ⟨8,23⟩

/-- `float_to_float16` -/
def floatToFloat16 (bits : UInt32) : UInt16 :=
  let sign := ((bits >>> 16) &&& 0x8000).toUInt16
  let exponent := (bits >>> 23) &&& 0xff
  let mantissa := bits &&& 0x7fffff
  if exponent=0xff then
    if mantissa=0 then sign ||| 0x7c00
    else
      let payload := (mantissa >>> 13).toUInt16
      sign ||| 0x7c00 ||| payload ||| 1
  else
    let halfExponent : ℤ := exponent.toNat-127+15
    if 31 ≤ halfExponent then sign ||| 0x7c00
    else if halfExponent ≤ 0 then
      if halfExponent < -10 then sign
      else
        let normalized := mantissa ||| 0x800000
        let shift := UInt32.ofNat (14-halfExponent).toNat
        let rounded := normalized >>> shift
        let remainderMask := (1 <<< shift)-1
        let remainder := normalized &&& remainderMask
        let halfway := (1 : UInt32) <<< (shift-1)
        let rounded :=
          if halfway < remainder ∨ (remainder=halfway ∧ rounded &&& 1≠0) then rounded+1
          else rounded
        (sign.toUInt32 ||| rounded).toUInt16
    else
      let roundedMantissa := mantissa >>> 13
      let remainder := mantissa &&& 0x1fff
      if 0x1000 < remainder ∨ (remainder=0x1000 ∧ roundedMantissa &&& 1≠0) then
        let roundedMantissa := roundedMantissa+1
        if roundedMantissa=0x400 then
          let incrementedExponent := halfExponent+1
          if 31 ≤ incrementedExponent then sign ||| 0x7c00
          else sign ||| (UInt16.ofNat incrementedExponent.toNat <<< 10)
        else sign ||| (UInt16.ofNat halfExponent.toNat <<< 10) ||| roundedMantissa.toUInt16
      else sign ||| (UInt16.ofNat halfExponent.toNat <<< 10) ||| roundedMantissa.toUInt16

section Fields

variable (n : ℕ)

/-- The bits of a half below its sign. -/
theorem half_word : half.word n=n%2^15 := rfl

/-- The exponent field of a half. -/
theorem half_exponent : half.exponent n=n%2^15/2^10 := rfl

/-- The mantissa field of a half. -/
theorem half_mantissa : half.mantissa n=n%2^15%2^10 := rfl

/-- The sign bit of a half. -/
theorem half_negative : half.negative n=decide (n/2^15%2=1) := rfl

/-- The bits of a float below its sign. -/
theorem single_word : single.word n=n%2^31 := rfl

/-- The exponent field of a float. -/
theorem single_exponent : single.exponent n=n%2^31/2^23 := rfl

/-- The mantissa field of a float. -/
theorem single_mantissa : single.mantissa n=n%2^31%2^23 := rfl

/-- The sign bit of a float. -/
theorem single_negative : single.negative n=decide (n/2^31%2=1) := rfl

end Fields

section Words

/-- A field of low bits. -/
theorem and_low {x : UInt32} {mask : UInt32} {i : ℕ} (hmask : mask.toNat=2^i-1) :
    (x &&& mask).toNat=x.toNat%2^i := by
  rw [UInt32.toNat_and,hmask,Nat.and_two_pow_sub_one_eq_mod]

/-- Dropping low bits. -/
theorem shift_low {x k : UInt32} {i : ℕ} (hk : k.toNat=i) (hi : i < 32) :
    (x >>> k).toNat=x.toNat/2^i := by
  rw [UInt32.toNat_shiftRight,hk,Nat.mod_eq_of_lt hi,Nat.shiftRight_eq_div_pow]

/-- Joining high bits with low bits. -/
theorem or_high {a b : UInt16} {i k : ℕ} (ha : a.toNat=2^i*k) (hb : b.toNat < 2^i) :
    (a ||| b).toNat=2^i*k+b.toNat := by
  rw [UInt16.toNat_or,ha,Nat.two_pow_add_eq_or_of_lt hb]

variable (bits : UInt32)

/-- The sign bit of a half, from a float. -/
theorem sign_toNat : (((bits >>> 16) &&& 0x8000).toUInt16).toNat=2^15*(bits.toNat/2^31) := by
  have hlt := bits.toNat_lt
  have hmask : (0x8000 : UInt32).toNat=2^15 := rfl
  rw [UInt32.toNat_toUInt16,UInt32.toNat_and,shift_low (i:=16) rfl (by decide),hmask,
    Nat.and_two_pow,Nat.toNat_testBit,Nat.div_div_eq_div_mul]
  omega

/-- The exponent field of a float. -/
theorem exponent_toNat : ((bits >>> 23) &&& 0xff).toNat=single.exponent bits.toNat := by
  have hlt := bits.toNat_lt
  rw [and_low (i:=8) rfl,shift_low (i:=23) rfl (by decide),single_exponent]
  omega

/-- The mantissa field of a float. -/
theorem mantissa_toNat : (bits &&& 0x7fffff).toNat=single.mantissa bits.toNat := by
  rw [and_low (i:=23) rfl,single_mantissa]
  omega

/-- The word of a float from its fields. -/
theorem single_word_fields :
    single.word bits.toNat=2^23*single.exponent bits.toNat+single.mantissa bits.toNat :=
  (Nat.div_add_mod _ _).symm

/-- The fields of a float are bounded. -/
theorem single_bounds : single.exponent bits.toNat < 2^8 ∧ single.mantissa bits.toNat < 2^23 := by
  rw [single_exponent,single_mantissa]
  omega

end Words

/-- A half made of a sign and a word. -/
theorem half_fields {n s r : ℕ} (hn : n=2^15*s+r) (hr : r < 2^15) (hs : s < 2) :
    half.word n=r ∧ half.negative n=decide (s=1) := by
  subst hn
  rw [half_word,half_negative]
  constructor
  · omega
  · exact decide_eq_decide.mpr (by omega)

/-- Halves that are infinite, by their word. -/
theorem half_infinite {n : ℕ} : half.IsInfinite n ↔ half.word n=0x7c00 := by
  have hspecial : half.special=31 := rfl
  rw [Format.IsInfinite,half_exponent,half_mantissa,half_word,hspecial]
  omega

/-- Halves that are finite, by their word. -/
theorem half_finite {n : ℕ} : half.IsFinite n ↔ half.word n < 0x7c00 := Format.isFinite_iff

/-- Halves that are no numbers, by their word. -/
theorem half_nan {n : ℕ} : half.IsNaN n ↔ 0x7c00 < half.word n := by
  have hspecial : half.special=31 := rfl
  rw [Format.IsNaN,half_exponent,half_mantissa,half_word,hspecial]
  omega

/-- Magnitudes of halves in the units of floats. -/
theorem half_magnitude (q : ℕ) : half.magnitude q=((grid 10 q*2^125 : ℕ) : ℚ)/2^149 := by
  have hscale : half.scale=24 := rfl
  have hmantissa : half.mantissaBits=10 := rfl
  have hsplit : (2 : ℚ)^149=2^24*2^125 := by rw [←pow_add]
  rw [Format.magnitude,hscale,hmantissa,Nat.cast_mul,Nat.cast_pow,Nat.cast_ofNat,hsplit,
    mul_div_mul_right _ _ (by positivity)]

/-- Magnitudes of floats. -/
theorem single_magnitude (word : ℕ) : single.magnitude word=(grid 23 word : ℚ)/2^149 := rfl

/-- A float between two halves, at some distance from the lower one in parts of
the last place, and its rounding. -/
theorem narrow {word q d s t : ℕ} (hword : grid 23 word=grid 10 q*2^125+d*2^t)
    (hunit : 2^(q/2^10-1)*2^125=2^(s+1)*2^t) (hd : d < 2^(s+1)) :
    half.magnitude q ≤ single.magnitude word ∧
      single.magnitude word < half.magnitude (q+1) ∧
      roundAt half.magnitude (single.magnitude word) q=
        if 2^s < d ∨ (d=2^s ∧ q%2=1) then q+1 else q := by
  have hnext : grid 10 (q+1)*2^125=grid 10 q*2^125+2^(s+1)*2^t := by
    rw [grid_succ,Nat.add_mul,hunit]
  have hpos : 0 < 2^t := Nat.two_pow_pos t
  have hhalf : (0 : ℚ) < 2^149 := by positivity
  have hsum : half.magnitude q+half.magnitude (q+1)=
      ((2*(grid 10 q*2^125)+2*2^s*2^t : ℕ) : ℚ)/2^149 := by
    rw [half_magnitude,half_magnitude,hnext]
    push_cast
    ring
  have htwice : 2*single.magnitude word=((2*(grid 10 q*2^125)+2*d*2^t : ℕ) : ℚ)/2^149 := by
    rw [single_magnitude,hword]
    push_cast
    ring
  have hless : half.magnitude q+half.magnitude (q+1) < 2*single.magnitude word ↔ 2^s < d := by
    rw [hsum,htwice,div_lt_div_iff_of_pos_right hhalf,Nat.cast_lt,Nat.add_lt_add_iff_left,
      Nat.mul_lt_mul_right hpos,Nat.mul_lt_mul_left Nat.two_pos]
  have heq : half.magnitude q+half.magnitude (q+1)=2*single.magnitude word ↔ d=2^s := by
    rw [hsum,htwice,div_left_inj' hhalf.ne',Nat.cast_inj,Nat.add_left_cancel_iff,
      Nat.mul_left_inj hpos.ne',Nat.mul_right_inj (by decide)]
    exact eq_comm
  refine ⟨?_,?_,?_⟩
  · rw [half_magnitude,single_magnitude,hword,div_le_div_iff_of_pos_right hhalf,Nat.cast_le]
    exact Nat.le_add_right _ _
  · rw [half_magnitude,single_magnitude,hword,hnext,div_lt_div_iff_of_pos_right hhalf,Nat.cast_lt]
    exact Nat.add_lt_add_left (Nat.mul_lt_mul_of_pos_right hd hpos) _
  · simp only [roundAt,hless,heq]

section Narrowing

variable (bits : UInt32)

/-- An exponent out of range gives a signed infinity. -/
theorem infinity_toNat : (((bits >>> 16) &&& 0x8000).toUInt16 ||| 0x7c00).toNat=
    2^15*(bits.toNat/2^31)+0x7c00 :=
  or_high (sign_toNat bits) (by decide)

/-- A sign joined with a word before it is narrowed. -/
theorem or_wide {rounded : UInt32} (h : rounded.toNat < 2^15) :
    ((((bits >>> 16) &&& 0x8000).toUInt16.toUInt32 ||| rounded).toUInt16).toNat=
      2^15*(bits.toNat/2^31)+rounded.toNat := by
  have hlt := bits.toNat_lt
  rw [UInt32.toNat_toUInt16,UInt32.toNat_or,UInt16.toNat_toUInt32,sign_toNat,
    ←Nat.two_pow_add_eq_or_of_lt h]
  omega

/-- No number becomes another number. -/
theorem floatToFloat16_nan (h : single.IsNaN bits.toNat) :
    half.IsNaN (floatToFloat16 bits).toNat := by
  obtain ⟨hexponent,hmantissa⟩ := h
  have hspecial : single.special=0xff := rfl
  rw [←exponent_toNat,hspecial] at hexponent
  rw [←mantissa_toNat] at hmantissa
  have hexp : (bits >>> 23) &&& 0xff=(0xff : UInt32) := UInt32.toNat_inj.mp hexponent
  have hman : ¬bits &&& 0x7fffff=(0 : UInt32) := fun h => hmantissa (by rw [h]; rfl)
  unfold floatToFloat16
  simp only [hexp,hman,if_true,if_false]
  have hbound := (single_bounds bits).2
  have hpayload : (((bits &&& 0x7fffff) >>> 13).toUInt16).toNat < 2^10 := by
    rw [UInt32.toNat_toUInt16,shift_low (i:=13) rfl (by decide),mantissa_toNat]
    omega
  set payload := ((bits &&& 0x7fffff) >>> 13).toUInt16 with hpay
  have hlow : (payload ||| 1).toNat < 2^10 ∧ 0 < (payload ||| 1).toNat := by
    rw [UInt16.toNat_or]
    refine ⟨Nat.or_lt_two_pow hpayload (by decide),?_⟩
    exact Nat.lt_of_lt_of_le Nat.one_pos Nat.right_le_or
  have hfields : ((0x7c00 : UInt16) ||| (payload ||| 1)).toNat=2^10*31+(payload ||| 1).toNat :=
    or_high rfl hlow.1
  rw [UInt16.or_assoc,UInt16.or_assoc,half_nan]
  have hnumber := or_high (sign_toNat bits) (b:=0x7c00 ||| (payload ||| 1)) (by
    rw [hfields]
    omega)
  rw [half_word,hnumber,hfields]
  omega

/-- An infinity stays one. -/
theorem floatToFloat16_infinite (h : single.IsInfinite bits.toNat) :
    (floatToFloat16 bits).toNat=2^15*(bits.toNat/2^31)+0x7c00 := by
  obtain ⟨hexponent,hmantissa⟩ := h
  have hspecial : single.special=0xff := rfl
  rw [←exponent_toNat,hspecial] at hexponent
  rw [←mantissa_toNat] at hmantissa
  have hexp : (bits >>> 23) &&& 0xff=(0xff : UInt32) := UInt32.toNat_inj.mp hexponent
  have hman : bits &&& 0x7fffff=(0 : UInt32) := UInt32.toNat_inj.mp hmantissa
  unfold floatToFloat16
  simp only [hexp,hman,if_true]
  exact infinity_toNat bits

/-- The exponent of a finite float is no special one. -/
theorem exponent_ne (h : single.IsFinite bits.toNat) : ¬(bits >>> 23) &&& 0xff=(0xff : UInt32) := by
  intro heq
  refine h ?_
  rw [←exponent_toNat,heq]
  rfl

/-- Large exponents overflow. -/
theorem floatToFloat16_overflow (hfinite : single.IsFinite bits.toNat)
    (h : 143 ≤ single.exponent bits.toNat) :
    (floatToFloat16 bits).toNat=2^15*(bits.toNat/2^31)+0x7c00 := by
  unfold floatToFloat16
  simp only [exponent_ne bits hfinite,if_false,exponent_toNat]
  rw [if_pos (by omega)]
  exact infinity_toNat bits

/-- Small exponents underflow. -/
theorem floatToFloat16_underflow (h : single.exponent bits.toNat < 102) :
    (floatToFloat16 bits).toNat=2^15*(bits.toNat/2^31) := by
  have hfinite : single.IsFinite bits.toNat := by
    intro heq
    rw [heq] at h
    exact absurd h (by decide)
  unfold floatToFloat16
  simp only [exponent_ne bits hfinite,if_false,exponent_toNat]
  rw [if_neg (by omega),if_pos (by omega),if_pos (by omega)]
  exact sign_toNat bits

/-- The bit that makes a mantissa odd. -/
theorem odd_iff {x : UInt32} : x &&& 1≠0 ↔ x.toNat%2=1 := by
  have hlow : (x &&& 1).toNat=x.toNat%2^1 := and_low rfl
  rw [ne_eq,←UInt32.toNat_inj,hlow]
  change ¬x.toNat%2^1=0 ↔ _
  omega

/-- Exponents of subnormal halves round the significand at a variable bit. -/
theorem floatToFloat16_subnormal (hlow : 102 ≤ single.exponent bits.toNat)
    (hhigh : single.exponent bits.toNat ≤ 112) {s n : ℕ} (hs : s+single.exponent bits.toNat=125)
    (hn : n=2^23+single.mantissa bits.toNat) :
    (floatToFloat16 bits).toNat=2^15*(bits.toNat/2^31)+
      if 2^s < n%2^(s+1) ∨ (n%2^(s+1)=2^s ∧ n/2^(s+1)%2=1) then n/2^(s+1)+1
      else n/2^(s+1) := by
  have hfinite : single.IsFinite bits.toNat := by
    intro heq
    rw [heq] at hhigh
    exact absurd hhigh (by decide)
  have hbound := (single_bounds bits).2
  have hnormal : ((bits &&& 0x7fffff) ||| 0x800000).toNat=n := by
    have hbit := Nat.two_pow_add_eq_or_of_lt hbound 1
    rw [UInt32.toNat_or,mantissa_toNat,Nat.or_comm,hn]
    exact hbit.symm
  have hamount : (14-((single.exponent bits.toNat : ℤ)-127+15)).toNat=s+1 := by omega
  have hshift : (UInt32.ofNat (s+1)).toNat=s+1 := by
    rw [UInt32.toNat_ofNat']
    exact Nat.mod_eq_of_lt (by omega)
  have hrounded : (((bits &&& 0x7fffff) ||| 0x800000) >>> UInt32.ofNat (s+1)).toNat=
      n/2^(s+1) := by
    rw [shift_low hshift (by omega),hnormal]
  have hpower : 2^(s+1) < 2^32 := Nat.pow_lt_pow_right (by decide) (by omega)
  have hone : ((1 : UInt32) <<< UInt32.ofNat (s+1)).toNat=2^(s+1) := by
    rw [UInt32.toNat_shiftLeft,hshift,Nat.mod_eq_of_lt (by omega : s+1 < 32),Nat.shiftLeft_eq]
    change 1*2^(s+1)%2^32=_
    rw [Nat.one_mul,Nat.mod_eq_of_lt hpower]
  have hmask : (((1 : UInt32) <<< UInt32.ofNat (s+1))-1).toNat=2^(s+1)-1 := by
    rw [UInt32.toNat_sub_of_le,hone]
    · rfl
    · rw [UInt32.le_iff_toNat_le,hone]
      exact Nat.two_pow_pos _
  have hremainder : (((bits &&& 0x7fffff) ||| 0x800000) &&&
      (((1 : UInt32) <<< UInt32.ofNat (s+1))-1)).toNat=n%2^(s+1) := by
    rw [and_low hmask,hnormal]
  have hprevious : (UInt32.ofNat (s+1)-1).toNat=s := by
    rw [UInt32.toNat_sub_of_le,hshift]
    · rfl
    · rw [UInt32.le_iff_toNat_le,hshift]
      exact Nat.succ_le_succ (Nat.zero_le s)
  have hhalfway : ((1 : UInt32) <<< (UInt32.ofNat (s+1)-1)).toNat=2^s := by
    have hless : 2^s < 2^32 := Nat.pow_lt_pow_right (by decide) (by omega)
    rw [UInt32.toNat_shiftLeft,hprevious,Nat.mod_eq_of_lt (by omega : s < 32),Nat.shiftLeft_eq]
    change 1*2^s%2^32=_
    rw [Nat.one_mul,Nat.mod_eq_of_lt hless]
  unfold floatToFloat16
  simp only [exponent_ne bits hfinite,if_false,exponent_toNat,hamount]
  rw [if_neg (by omega),if_pos (by omega),if_neg (by omega)]
  simp only [UInt32.lt_iff_toNat_lt,←UInt32.toNat_inj (b:=(1 : UInt32) <<< _),odd_iff,hhalfway,
    hremainder,hrounded]
  have hquotient : n/2^(s+1) < 2^10 := by
    have hle : 2^14 ≤ 2^(s+1) := Nat.pow_le_pow_right (by decide) (by omega)
    rw [Nat.div_lt_iff_lt_mul (Nat.two_pow_pos _)]
    exact Nat.lt_of_lt_of_le (by omega) (Nat.mul_le_mul_left _ hle)
  split
  · have hnext : ((((bits &&& 0x7fffff) ||| 0x800000) >>> UInt32.ofNat (s+1))+1).toNat=
        n/2^(s+1)+1 := by
      rw [UInt32.toNat_add,hrounded]
      exact Nat.mod_eq_of_lt (by change n/2^(s+1)+1 < 2^32; omega)
    rw [or_wide bits (by omega),hnext]
  · rw [or_wide bits (by omega),hrounded]

/-- A sign joined with the two fields of a half. -/
theorem or_fields {exponent : ℕ} {mantissa : UInt32} (hexponent : exponent < 2^5)
    (hmantissa : mantissa.toNat < 2^10) :
    (((bits >>> 16) &&& 0x8000).toUInt16 ||| (UInt16.ofNat exponent <<< 10) |||
      mantissa.toUInt16).toNat=2^15*(bits.toNat/2^31)+(2^10*exponent+mantissa.toNat) := by
  have hlow : mantissa.toUInt16.toNat=mantissa.toNat := by
    rw [UInt32.toNat_toUInt16]
    exact Nat.mod_eq_of_lt (by omega)
  have hhigh : (UInt16.ofNat exponent <<< 10).toNat=2^10*exponent := by
    rw [UInt16.toNat_shiftLeft,UInt16.toNat_ofNat',Nat.mod_eq_of_lt (by omega : exponent < 2^16)]
    change exponent <<< 10%2^16=_
    rw [Nat.shiftLeft_eq]
    omega
  have hfields := or_high hhigh (b:=mantissa.toUInt16) (by omega)
  rw [hlow] at hfields
  rw [UInt16.or_assoc,or_high (sign_toNat bits) (by rw [hfields]; omega),hfields]

/-- Exponents of normal halves round the mantissa and carry into the exponent. -/
theorem floatToFloat16_normal (hlow : 113 ≤ single.exponent bits.toNat)
    (hhigh : single.exponent bits.toNat ≤ 142) {q d : ℕ}
    (hq : q=2^10*(single.exponent bits.toNat-112)+single.mantissa bits.toNat/2^13)
    (hd : d=single.mantissa bits.toNat%2^13) :
    (floatToFloat16 bits).toNat=2^15*(bits.toNat/2^31)+
      if 2^12 < d ∨ (d=2^12 ∧ q%2=1) then q+1 else q := by
  have hfinite : single.IsFinite bits.toNat := by
    intro heq
    rw [heq] at hhigh
    exact absurd hhigh (by decide)
  have hbound := (single_bounds bits).2
  have hrounded : ((bits &&& 0x7fffff) >>> 13).toNat=single.mantissa bits.toNat/2^13 := by
    rw [shift_low (i:=13) rfl (by decide),mantissa_toNat]
  have hremainder : ((bits &&& 0x7fffff) &&& 0x1fff).toNat=d := by
    rw [and_low (i:=13) rfl,mantissa_toNat,hd]
  have hnext : (((bits &&& 0x7fffff) >>> 13)+1).toNat=single.mantissa bits.toNat/2^13+1 := by
    rw [UInt32.toNat_add,hrounded]
    exact Nat.mod_eq_of_lt (by
      change single.mantissa bits.toNat/2^13+1 < 2^32
      omega)
  have hparity : single.mantissa bits.toNat/2^13%2=q%2 := by omega
  have hhalfExponent : ((single.exponent bits.toNat : ℤ)-127+15).toNat=
      single.exponent bits.toNat-112 := by omega
  have hincremented : ((single.exponent bits.toNat : ℤ)-127+15+1).toNat=
      single.exponent bits.toNat-112+1 := by omega
  have htie : (0x1000 : UInt32).toNat=2^12 := rfl
  have hcarry : (0x400 : UInt32).toNat=2^10 := rfl
  unfold floatToFloat16
  simp only [exponent_ne bits hfinite,if_false,exponent_toNat,hhalfExponent,hincremented]
  rw [if_neg (by omega),if_neg (by omega)]
  simp only [UInt32.lt_iff_toNat_lt,←UInt32.toNat_inj (b:=(0x1000 : UInt32)),
    ←UInt32.toNat_inj (b:=(0x400 : UInt32)),odd_iff,hremainder,hrounded,hnext,hparity,htie,hcarry]
  split
  · split
    · rename_i hfull
      split
      · rename_i hlast
        rw [infinity_toNat]
        omega
      · rename_i hlast
        have hincrement : single.exponent bits.toNat-112+1 < 2^5 := by omega
        have hzero := @or_fields bits _ 0 hincrement (by decide)
        have hnone : (0 : UInt32).toUInt16=0 := rfl
        rw [hnone,UInt16.or_zero] at hzero
        rw [hzero,hq]
        change _+(_+0)=_
        omega
    · rename_i hfull
      rw [or_fields bits (by omega) (by omega),hnext,hq]
      omega
  · rw [or_fields bits (by omega) (by omega),hrounded,hq]

/-- The magnitude of a float from its fields. -/
theorem grid_fields : grid 23 (single.word bits.toNat)=
    ((if single.exponent bits.toNat=0 then 0 else 2^23)+single.mantissa bits.toNat)*
      2^(single.exponent bits.toNat-1) := rfl

/-- A float without overflow becomes its sign and its rounded magnitude. -/
theorem floatToFloat16_rounds (h : single.exponent bits.toNat ≤ 142) :
    ∃ q,half.magnitude q ≤ single.magnitude (single.word bits.toNat) ∧
      single.magnitude (single.word bits.toNat) < half.magnitude (q+1) ∧
      (floatToFloat16 bits).toNat=2^15*(bits.toNat/2^31)+
        roundAt half.magnitude (single.magnitude (single.word bits.toNat)) q ∧ q < 0x7c00 := by
  have hbound := (single_bounds bits).2
  set e := single.exponent bits.toNat with he
  set m := single.mantissa bits.toNat with hm
  have hgrid := grid_fields bits
  rw [←he,←hm] at hgrid
  rcases Nat.lt_or_ge e 102 with hsmall|hlow
  · have hd : grid 23 (single.word bits.toNat) < 2^124 := by
      have hle : 2^(e-1) ≤ 2^100 := Nat.pow_le_pow_right (by decide) (by omega)
      have hsum : (if e=0 then 0 else 2^23)+m < 2^24 := by
        split <;> omega
      rw [hgrid]
      exact Nat.lt_of_lt_of_le (Nat.mul_lt_mul_of_pos_right hsum (Nat.two_pow_pos _))
        (Nat.mul_le_mul_left _ hle)
    obtain ⟨hlower,hupper,hround⟩ := @narrow (single.word bits.toNat) 0
      (grid 23 (single.word bits.toNat)) 124 0 (by rw [grid_zero]; omega) rfl (by omega)
    refine ⟨0,hlower,hupper,?_,by decide⟩
    rw [hround,if_neg (by omega)]
    exact floatToFloat16_underflow bits hsmall
  · rw [if_neg (by omega)] at hgrid
    rcases Nat.lt_or_ge e 113 with hmiddle|hnormal
    · obtain ⟨s,hs⟩ : ∃ s,s+e=125 := ⟨125-e,by omega⟩
      have hq : (2^23+m)/2^(s+1) < 2^10 := by
        have hle : 2^14 ≤ 2^(s+1) := Nat.pow_le_pow_right (by decide) (by omega)
        rw [Nat.div_lt_iff_lt_mul (Nat.two_pow_pos _)]
        exact Nat.lt_of_lt_of_le (by omega) (Nat.mul_le_mul_left _ hle)
      have hzero : (2^23+m)/2^(s+1)/2^10=0 := Nat.div_eq_of_lt hq
      have hpower : 2^(s+1)*2^(e-1)=2^125 := by
        rw [←Nat.pow_add]
        congr 1
        omega
      have hlowgrid : grid 10 ((2^23+m)/2^(s+1))=(2^23+m)/2^(s+1) := by
        rw [grid,hzero,if_pos rfl,Nat.zero_add,Nat.mod_eq_of_lt hq]
        exact Nat.mul_one _
      obtain ⟨hlower,hupper,hround⟩ := @narrow (single.word bits.toNat) ((2^23+m)/2^(s+1))
        ((2^23+m)%2^(s+1)) s (e-1) (by
          rw [hgrid,hlowgrid,←hpower,←Nat.mul_assoc,←Nat.add_mul,Nat.div_add_mod']) (by
          rw [hzero,hpower]
          rfl) (Nat.mod_lt _ (Nat.two_pow_pos _))
      refine ⟨_,hlower,hupper,?_,by omega⟩
      rw [hround]
      exact floatToFloat16_subnormal bits hlow (by omega) hs rfl
    · obtain ⟨k,hk⟩ : ∃ k,e=k+113 := ⟨e-113,by omega⟩
      have hexponent : (2^10*(e-112)+m/2^13)/2^10=k+1 := by omega
      have hmantissa : (2^10*(e-112)+m/2^13)%2^10=m/2^13 := by omega
      have hpower : 2^13*2^(e-1)=2^k*2^125 := by
        rw [←Nat.pow_add,←Nat.pow_add]
        congr 1
        omega
      have hhigh : grid 10 (2^10*(e-112)+m/2^13)*2^125=(2^10+m/2^13)*2^13*2^(e-1) := by
        rw [grid,hexponent,hmantissa,if_neg (Nat.succ_ne_zero k),Nat.add_sub_cancel,
          Nat.mul_assoc,Nat.mul_assoc,hpower]
      obtain ⟨hlower,hupper,hround⟩ := @narrow (single.word bits.toNat) (2^10*(e-112)+m/2^13)
        (m%2^13) 12 (e-1) (by
          rw [hgrid,hhigh,←Nat.add_mul]
          congr 1
          omega) (by
          rw [hexponent,Nat.add_sub_cancel,hpower]) (Nat.mod_lt _ (by decide))
      refine ⟨_,hlower,hupper,?_,by omega⟩
      rw [hround]
      exact floatToFloat16_normal bits hnormal (by omega) rfl rfl

/-- The largest finite half and the bound of overflow. -/
theorem half_limits : half.magnitude 0x7bff=65504 ∧ half.magnitude 0x7c00=65536 := by
  rw [half_magnitude,half_magnitude]
  norm_num [grid]

/-- The magnitude of floats that overflow by their exponent. -/
theorem overflow_magnitude (h : 143 ≤ single.exponent bits.toNat) :
    65536 ≤ single.magnitude (single.word bits.toNat) := by
  have hword : 143*2^23 ≤ single.word bits.toNat := by
    rw [single_word_fields]
    omega
  have hleast : single.magnitude (143*2^23)=65536 := by
    rw [single_magnitude]
    norm_num [grid]
  rw [←hleast]
  exact Format.magnitude_strictMono.monotone hword

/-- A half is a float rounded to the nearest, of the same sign, with an infinity
from the bound of overflow on. -/
structure IsNarrowed (n h : ℕ) : Prop where
  negative : half.negative h=single.negative n
  number : ¬half.IsNaN h
  infinite : half.IsInfinite h ↔ single.IsInfinite n ∨ 65520 ≤ |single.value n|
  nearest : ¬half.IsInfinite h → half.IsNearestEven h (single.value n)

/-- The sign and the word of a narrowed float. -/
theorem floatToFloat16_fields {r : ℕ} (hr : r < 2^15)
    (hn : (floatToFloat16 bits).toNat=2^15*(bits.toNat/2^31)+r) :
    half.word (floatToFloat16 bits).toNat=r ∧
      half.negative (floatToFloat16 bits).toNat=single.negative bits.toNat := by
  have hlt := bits.toNat_lt
  obtain ⟨hword,hnegative⟩ := half_fields hn hr (by omega)
  refine ⟨hword,hnegative.trans ?_⟩
  rw [single_negative]
  exact decide_eq_decide.mpr (by omega)

/-- Infinities and what overflows become infinities. -/
theorem isNarrowed_infinite
    (hbound : single.IsInfinite bits.toNat ∨ 65520 ≤ |single.value bits.toNat|)
    (hn : (floatToFloat16 bits).toNat=2^15*(bits.toNat/2^31)+0x7c00) :
    IsNarrowed bits.toNat (floatToFloat16 bits).toNat := by
  obtain ⟨hword,hnegative⟩ := floatToFloat16_fields bits (by decide) hn
  have hinfinite := half_infinite.mpr hword
  refine ⟨hnegative,?_,iff_of_true hinfinite hbound,fun h => absurd hinfinite h⟩
  rw [half_nan,hword]
  exact Nat.lt_irrefl _

/-- Floats without an overflow of the exponent are rounded. -/
theorem isNarrowed_rounded (hsmall : single.exponent bits.toNat < 143) :
    IsNarrowed bits.toNat (floatToFloat16 bits).toNat := by
  have habs := Format.abs_value (f:=single) bits.toNat
  obtain ⟨q,hlower,hupper,hn,hq⟩ := floatToFloat16_rounds bits (by omega)
  have hle : roundAt half.magnitude (single.magnitude (single.word bits.toNat)) q ≤ 0x7c00 := by
    unfold roundAt
    split <;> omega
  obtain ⟨hword,hnegative⟩ := floatToFloat16_fields bits (by omega) hn
  have hlimit := lt_roundAt_iff (Format.magnitude_strictMono (f:=half)) hlower hupper
    (k:=0x7bff) (by decide)
  rw [half_limits.1,half_limits.2] at hlimit
  refine ⟨hnegative,?_,?_,fun hnot => ?_⟩
  · rw [half_nan,hword]
    omega
  · rw [half_infinite,hword,habs]
    constructor
    · intro h
      have hreach := hlimit.mp (by omega)
      exact .inr (by linarith)
    · rintro (h|h)
      · have hspecial : single.special=255 := rfl
        have hexponent := h.1
        omega
      · have hpast := hlimit.mpr (by linarith)
        omega
  · rw [half_infinite,hword] at hnot
    rw [←habs] at hlower hupper hword
    refine Format.isNearestEven_of_round (by decide) (half_finite.mpr ?_) ?_ hlower hupper hword
    · rw [hword,habs]
      omega
    · rw [hnegative,habs]
      rfl

/-- Numbers become the nearest halves. -/
theorem floatToFloat16_isNarrowed (hnumber : ¬single.IsNaN bits.toNat) :
    IsNarrowed bits.toNat (floatToFloat16 bits).toNat := by
  by_cases hfinite : single.IsFinite bits.toNat
  · rcases Nat.lt_or_ge (single.exponent bits.toNat) 143 with hsmall|hlarge
    · exact isNarrowed_rounded bits hsmall
    · refine isNarrowed_infinite bits (.inr ?_) (floatToFloat16_overflow bits hfinite hlarge)
      rw [Format.abs_value]
      linarith [overflow_magnitude bits hlarge]
  · have hinfinite : single.IsInfinite bits.toNat := by
      refine ⟨not_not.mp hfinite,?_⟩
      by_contra hmantissa
      exact hnumber ⟨not_not.mp hfinite,hmantissa⟩
    exact isNarrowed_infinite bits (.inl hinfinite) (floatToFloat16_infinite bits hinfinite)

end Narrowing

section Widening

/-- The bit that ends the loop. -/
theorem normalized_iff {mantissa : UInt32} (h : mantissa.toNat < 2^11) :
    mantissa &&& 0x400=0 ↔ mantissa.toNat < 2^10 := by
  have hbit : (0x400 : UInt32).toNat=2^10 := rfl
  rw [←UInt32.toNat_inj,UInt32.toNat_and,hbit,Nat.and_two_pow,Nat.toNat_testBit]
  change mantissa.toNat/2^10%2*2^10=0 ↔ _
  omega

/-- A round of the loop doubles the mantissa. -/
theorem shift_one {mantissa : UInt32} (h : mantissa.toNat < 2^11) :
    (mantissa <<< 1).toNat=2*mantissa.toNat := by
  rw [UInt32.toNat_shiftLeft]
  change mantissa.toNat <<< 1%2^32=_
  rw [Nat.shiftLeft_eq]
  omega

/-- The loop stops at once on a normalized mantissa. -/
theorem normalize_stop {mantissa : UInt32} (hlow : 2^10 ≤ mantissa.toNat)
    (hlt : mantissa.toNat < 2^11) (fuel : ℕ) (exponent : UInt32) :
    normalize fuel mantissa exponent=(mantissa,exponent) := by
  cases fuel with
  | zero => rfl
  | succ fuel =>
    refine if_neg fun h => ?_
    exact absurd ((normalized_iff hlt).mp h) (by omega)

/-- The loop doubles the mantissa until its highest bit is set, and ends. -/
theorem normalize_spec {fuel : ℕ} {mantissa exponent : UInt32}
    (hreach : 2^10 ≤ mantissa.toNat*2^fuel) (hlt : mantissa.toNat < 2^11)
    (hexponent : fuel ≤ exponent.toNat) :
    ∃ k ≤ fuel,(normalize fuel mantissa exponent).1.toNat=mantissa.toNat*2^k ∧
      (normalize fuel mantissa exponent).2.toNat+k=exponent.toNat ∧
      2^10 ≤ mantissa.toNat*2^k ∧ mantissa.toNat*2^k < 2^11 := by
  by_cases hsmall : mantissa.toNat < 2^10
  · induction fuel generalizing mantissa exponent with
    | zero => omega
    | succ fuel ih =>
      have hdouble := shift_one hlt
      have hone : (1 : UInt32).toNat=1 := rfl
      have hprevious : (exponent-1).toNat=exponent.toNat-1 := by
        rw [UInt32.toNat_sub_of_le,hone]
        rw [UInt32.le_iff_toNat_le,hone]
        omega
      have hpower : ∀ n,mantissa.toNat*2^(n+1)=(mantissa <<< 1).toNat*2^n := by
        intro n
        rw [hdouble,Nat.pow_succ']
        ring
      rw [hpower] at hreach
      rw [WeightChunks.normalize,if_pos ((normalized_iff hlt).mpr hsmall)]
      by_cases hnext : (mantissa <<< 1).toNat < 2^10
      · obtain ⟨k,hk,hfirst,hsecond,hlow,hhigh⟩ :=
          @ih (mantissa <<< 1) (exponent-1) hreach (by omega) (by omega) hnext
        rw [←hpower] at hfirst hlow hhigh
        exact ⟨k+1,Nat.succ_le_succ hk,hfirst,by omega,hlow,hhigh⟩
      · rw [normalize_stop (by omega) (by omega)]
        refine ⟨1,Nat.succ_le_succ (Nat.zero_le _),?_,?_,?_,?_⟩
        · rw [hpower 0,Nat.pow_zero,Nat.mul_one]
        · change (exponent-1).toNat+1=exponent.toNat
          omega
        · rw [hpower 0,Nat.pow_zero]
          omega
        · rw [hpower 0,Nat.pow_zero]
          omega
  · rw [normalize_stop (by omega) hlt]
    refine ⟨0,Nat.zero_le _,?_,rfl,?_,?_⟩
    · rw [Nat.pow_zero,Nat.mul_one]
    · rw [Nat.pow_zero,Nat.mul_one]
      omega
    · rw [Nat.pow_zero,Nat.mul_one]
      exact hlt

/-- More rounds than needed change nothing. -/
theorem normalize_enough {fuel : ℕ} {mantissa exponent : UInt32}
    (hreach : 2^10 ≤ mantissa.toNat*2^fuel) (hlt : mantissa.toNat < 2^11) (more : ℕ) :
    normalize (fuel+more) mantissa exponent=normalize fuel mantissa exponent := by
  induction fuel generalizing mantissa exponent with
  | zero =>
    rw [Nat.pow_zero,Nat.mul_one] at hreach
    rw [normalize_stop hreach hlt,normalize_stop hreach hlt]
  | succ fuel ih =>
    by_cases hsmall : mantissa.toNat < 2^10
    · have hdouble := shift_one hlt
      rw [Nat.add_right_comm,WeightChunks.normalize,WeightChunks.normalize,
        if_pos ((normalized_iff hlt).mpr hsmall),
        if_pos ((normalized_iff hlt).mpr hsmall)]
      refine ih ?_ (by omega)
      rw [hdouble,Nat.mul_comm 2,Nat.mul_assoc,←Nat.pow_succ']
      exact hreach
    · rw [normalize_stop (by omega) hlt,normalize_stop (by omega) hlt]

/-- Joining high bits with low bits. -/
theorem or_high_wide {a b : UInt32} {i k : ℕ} (ha : a.toNat=2^i*k) (hb : b.toNat < 2^i) :
    (a ||| b).toNat=2^i*k+b.toNat := by
  rw [UInt32.toNat_or,ha,Nat.two_pow_add_eq_or_of_lt hb]

/-- Shifting a word that has room. -/
theorem shift_high {x k : UInt32} {i : ℕ} (hk : k.toNat=i) (hi : i < 32)
    (hx : 2^i*x.toNat < 2^32) : (x <<< k).toNat=2^i*x.toNat := by
  rw [UInt32.toNat_shiftLeft,hk,Nat.mod_eq_of_lt hi,Nat.shiftLeft_eq,Nat.mul_comm,
    Nat.mod_eq_of_lt hx]

variable (h : UInt16)

/-- The fields of a half are bounded. -/
theorem half_bounds : half.exponent h.toNat < 2^5 ∧ half.mantissa h.toNat < 2^10 := by
  rw [half_exponent,half_mantissa]
  omega

/-- The sign bit of a float, from a half. -/
theorem wide_sign_toNat : ((h &&& 0x8000).toUInt32 <<< 16).toNat=2^31*(h.toNat/2^15) := by
  have hlt := h.toNat_lt
  have hmask : (0x8000 : UInt16).toNat=2^15 := rfl
  have hbit : (h &&& 0x8000).toUInt32.toNat=2^15*(h.toNat/2^15) := by
    rw [UInt16.toNat_toUInt32,UInt16.toNat_and,hmask,Nat.and_two_pow,Nat.toNat_testBit]
    omega
  rw [shift_high (i:=16) rfl (by decide) (by rw [hbit]; omega),hbit]
  omega

/-- The exponent field of a half. -/
theorem half_exponent_toNat :
    (((h >>> 10) &&& 0x1f).toUInt32).toNat=half.exponent h.toNat := by
  have hmask : (0x1f : UInt16).toNat=2^5-1 := rfl
  rw [UInt16.toNat_toUInt32,UInt16.toNat_and,hmask,Nat.and_two_pow_sub_one_eq_mod,
    UInt16.toNat_shiftRight,half_exponent]
  change h.toNat >>> 10%2^5=_
  rw [Nat.shiftRight_eq_div_pow]
  omega

/-- The mantissa field of a half. -/
theorem half_mantissa_toNat : ((h &&& 0x3ff).toUInt32).toNat=half.mantissa h.toNat := by
  have hmask : (0x3ff : UInt16).toNat=2^10-1 := rfl
  rw [UInt16.toNat_toUInt32,UInt16.toNat_and,hmask,Nat.and_two_pow_sub_one_eq_mod,half_mantissa]
  omega

/-- A sign joined with the two fields of a float. -/
theorem or_fields_wide {exponent mantissa : UInt32} (hexponent : exponent.toNat < 2^8)
    (hmantissa : mantissa.toNat < 2^10) :
    (((h &&& 0x8000).toUInt32 <<< 16) ||| (exponent <<< 23) ||| (mantissa <<< 13)).toNat=
      2^31*(h.toNat/2^15)+(2^23*exponent.toNat+2^13*mantissa.toNat) := by
  have hhigh := shift_high (x:=exponent) (k:=23) (i:=23) rfl (by decide) (by omega)
  have hlow := shift_high (x:=mantissa) (k:=13) (i:=13) rfl (by decide) (by omega)
  have hfields := or_high_wide hhigh (b:=mantissa <<< 13) (by omega)
  rw [hlow] at hfields
  rw [UInt32.or_assoc,or_high_wide (wide_sign_toNat h) (by rw [hfields]; omega),hfields]

/-- A normalized mantissa and its exponent have the magnitude of a subnormal half. -/
theorem grid_normalized {m k exponent : ℕ} (hexponent : exponent+k=113) (hk : k ≤ 10)
    (hlow : 2^10 ≤ m*2^k) (hhigh : m*2^k < 2^11) :
    grid 23 (2^23*exponent+2^13*(m*2^k-2^10))=m*2^125 := by
  obtain ⟨j,hj⟩ : ∃ j,exponent=j+1 := ⟨exponent-1,by omega⟩
  set f := m*2^k-2^10 with hf
  have hdiv : (2^23*exponent+2^13*f)/2^23=j+1 := by omega
  have hmod : (2^23*exponent+2^13*f)%2^23=2^13*f := by omega
  have hbits : 13+j+k=125 := by omega
  have hsum : 2^23+2^13*f=m*2^k*2^13 := by omega
  rw [grid,hdiv,hmod,if_neg (Nat.succ_ne_zero j),Nat.add_sub_cancel,hsum]
  calc m*2^k*2^13*2^j=m*(2^13*2^j*2^k) := by ring
    _=m*2^125 := by rw [←Nat.pow_add,←Nat.pow_add,hbits]

/-- A rebased exponent has the magnitude of a normal half. -/
theorem grid_normal {m exponent : ℕ} (hexponent : 0 < exponent) (hm : m < 2^10) :
    grid 23 (2^23*(exponent+112)+2^13*m)=(2^10+m)*2^(exponent-1)*2^125 := by
  obtain ⟨j,rfl⟩ : ∃ j,exponent=j+1 := ⟨exponent-1,by omega⟩
  have hdiv : (2^23*(j+1+112)+2^13*m)/2^23=j+1+112 := by omega
  have hmod : (2^23*(j+1+112)+2^13*m)%2^23=2^13*m := by omega
  have hbits : 13+(j+1+112-1)=j+125 := by omega
  rw [grid,hdiv,hmod,if_neg (Nat.succ_ne_zero _),Nat.add_sub_cancel]
  calc (2^23+2^13*m)*2^(j+1+112-1)=(2^10+m)*(2^13*2^(j+1+112-1)) := by ring
    _=(2^10+m)*2^j*2^125 := by rw [←Nat.pow_add,hbits,Nat.pow_add,Nat.mul_assoc]

/-- A widened half is its sign and a word of the same magnitude, and what is
special stays so. -/
theorem float16ToFloat_fields : ∃ word < 2^31,
    (float16ToFloat h).toNat=2^31*(h.toNat/2^15)+word ∧
      (half.exponent h.toNat=31 → word=2^23*255+2^13*half.mantissa h.toNat) ∧
      (half.exponent h.toNat≠31 → word < 2^23*255 ∧
        grid 23 word=grid 10 (half.word h.toNat)*2^125) := by
  obtain ⟨hexponent,hmantissa⟩ := half_bounds h
  have hexp := half_exponent_toNat h
  have hman := half_mantissa_toNat h
  have hgrid : grid 10 (half.word h.toNat)=
      ((if half.exponent h.toNat=0 then 0 else 2^10)+half.mantissa h.toNat)*
        2^(half.exponent h.toNat-1) := rfl
  unfold float16ToFloat
  set exponent := ((h >>> 10) &&& 0x1f).toUInt32 with hexponent_def
  set mantissa := (h &&& 0x3ff).toUInt32 with hmantissa_def
  have hzero : exponent=0 ↔ half.exponent h.toNat=0 := by
    rw [←UInt32.toNat_inj,hexp]
    rfl
  have hnone : mantissa=0 ↔ half.mantissa h.toNat=0 := by
    rw [←UInt32.toNat_inj,hman]
    rfl
  have hspecial : exponent=0x1f ↔ half.exponent h.toNat=31 := by
    rw [←UInt32.toNat_inj,hexp]
    rfl
  simp only [hzero,hnone,hspecial]
  by_cases hsubnormal : half.exponent h.toNat=0
  · rw [if_pos hsubnormal]
    rw [hsubnormal,if_pos rfl,Nat.zero_add] at hgrid
    by_cases hsigned : half.mantissa h.toNat=0
    · rw [if_pos hsigned]
      refine ⟨0,by decide,wide_sign_toNat h,fun he => ?_,fun _ => ⟨by decide,?_⟩⟩
      · omega
      · rw [grid_zero,hgrid,hsigned]
        rfl
    · rw [if_neg hsigned]
      obtain ⟨k,hk,hfirst,hsecond,hlow,hhigh⟩ := @normalize_spec 10 mantissa (127-14)
        (by rw [hman]; omega) (by omega) (by decide)
      have hstart : ((127 : UInt32)-14).toNat=113 := rfl
      rw [hstart] at hsecond
      rw [hman] at hfirst hlow hhigh
      have hfraction : ((normalize 10 mantissa (127-14)).1 &&& 0x3ff).toNat=
          half.mantissa h.toNat*2^k-2^10 := by
        rw [and_low (i:=10) rfl,hfirst]
        omega
      have hjoined := @or_fields_wide h (normalize 10 mantissa (127-14)).2
        ((normalize 10 mantissa (127-14)).1 &&& 0x3ff) (by omega) (by omega)
      rw [hfraction] at hjoined
      refine ⟨_,?_,hjoined,fun he => ?_,fun _ => ⟨?_,?_⟩⟩
      · omega
      · omega
      · omega
      · rw [grid_normalized hsecond hk hlow hhigh,hgrid,Nat.zero_sub,Nat.pow_zero,Nat.mul_one]
  · rw [if_neg hsubnormal]
    by_cases hlast : half.exponent h.toNat=31
    · rw [if_pos hlast]
      have hjoined := @or_fields_wide h 255 mantissa (by decide) (by omega)
      rw [hman] at hjoined
      refine ⟨2^23*255+2^13*half.mantissa h.toNat,by omega,hjoined,fun _ => rfl,
        fun hne => absurd hlast hne⟩
    · rw [if_neg hlast]
      have hsum : (exponent+(127-15)).toNat=half.exponent h.toNat+112 := by
        have hbias : ((127 : UInt32)-15).toNat=112 := rfl
        rw [UInt32.toNat_add,hexp,hbias]
        omega
      have hjoined := @or_fields_wide h (exponent+(127-15)) mantissa (by omega) (by omega)
      rw [hman,hsum] at hjoined
      refine ⟨_,?_,hjoined,fun he => absurd he hlast,fun _ => ⟨by omega,?_⟩⟩
      · omega
      · rw [grid_normal (by omega) hmantissa,hgrid,if_neg hsubnormal]

/-- A float of the same sign and kind as a half and of the same value. -/
structure IsWidened (h n : ℕ) : Prop where
  negative : single.negative n=half.negative h
  nan : single.IsNaN n ↔ half.IsNaN h
  infinite : single.IsInfinite n ↔ half.IsInfinite h
  value : half.IsFinite h → single.IsFinite n ∧ single.value n=half.value h

/-- Widening is exact. -/
theorem float16ToFloat_isWidened : IsWidened h.toNat (float16ToFloat h).toNat := by
  obtain ⟨word,hword,hjoined,hspecial,hfinite⟩ := float16ToFloat_fields h
  have hlt := h.toNat_lt
  have hbound := (half_bounds h).2
  have hspecial_single : single.special=255 := rfl
  have hspecial_half : half.special=31 := rfl
  have hmod : single.word (float16ToFloat h).toNat=word := by
    rw [single_word]
    omega
  have hexponent : single.exponent (float16ToFloat h).toNat=word/2^23 := by
    rw [←hmod]
    rfl
  have hmantissa : single.mantissa (float16ToFloat h).toNat=word%2^23 := by
    rw [←hmod]
    rfl
  have hnegative : single.negative (float16ToFloat h).toNat=half.negative h.toNat := by
    rw [single_negative,half_negative]
    exact decide_eq_decide.mpr (by omega)
  have hkind : single.exponent (float16ToFloat h).toNat=255 ↔ half.exponent h.toNat=31 := by
    rw [hexponent]
    constructor
    · intro heq
      by_contra hne
      have hsmall := (hfinite hne).1
      omega
    · intro heq
      rw [hspecial heq]
      omega
  have hfraction : half.exponent h.toNat=31 →
      (single.mantissa (float16ToFloat h).toNat=0 ↔ half.mantissa h.toNat=0) := by
    intro heq
    rw [hmantissa,hspecial heq]
    omega
  refine ⟨hnegative,?_,?_,fun hnumber => ⟨?_,?_⟩⟩
  · rw [Format.IsNaN,Format.IsNaN,hspecial_single,hspecial_half,hkind]
    exact and_congr_right fun heq => not_congr (hfraction heq)
  · rw [Format.IsInfinite,Format.IsInfinite,hspecial_single,hspecial_half,hkind]
    exact and_congr_right fun heq => hfraction heq
  · rw [Format.IsFinite,hspecial_single]
    exact fun heq => hnumber (hkind.mp heq)
  · obtain ⟨-,hgrid⟩ := hfinite hnumber
    have hsame : single.magnitude word=half.magnitude (half.word h.toNat) := by
      rw [single_magnitude,half_magnitude,hgrid]
    rw [Format.value,Format.value,hnegative,hmod,hsame]

/-- Halves are determined by their sign and word. -/
theorem half_eq {h k : UInt16} (hnegative : half.negative h.toNat=half.negative k.toNat)
    (hword : half.word h.toNat=half.word k.toNat) : h=k := by
  have hh := h.toNat_lt
  have hk := k.toNat_lt
  rw [half_negative,half_negative,decide_eq_decide] at hnegative
  rw [half_word,half_word] at hword
  refine UInt16.toNat_inj.mp ?_
  omega

/-- Narrowing undoes widening. -/
theorem floatToFloat16_float16ToFloat (hnumber : ¬half.IsNaN h.toNat) :
    floatToFloat16 (float16ToFloat h)=h := by
  have hwide := float16ToFloat_isWidened h
  have hnarrow := floatToFloat16_isNarrowed (float16ToFloat h) fun hnan => hnumber (hwide.nan.mp hnan)
  refine half_eq (hnarrow.negative.trans hwide.negative) ?_
  by_cases hinfinite : half.IsInfinite h.toNat
  · have hresult := hnarrow.infinite.mpr (.inl (hwide.infinite.mpr hinfinite))
    rw [half_infinite.mp hinfinite,half_infinite.mp hresult]
  · have hfinite : half.IsFinite h.toNat := by
      rw [half_finite]
      rw [half_infinite] at hinfinite
      rw [half_nan] at hnumber
      omega
    obtain ⟨-,hvalue⟩ := hwide.value hfinite
    have hsmall : |half.value h.toNat| ≤ 65504 := by
      rw [Format.abs_value,←half_limits.1]
      rw [half_finite] at hfinite
      exact Format.magnitude_strictMono.monotone (by omega)
    have hnot : ¬half.IsInfinite (floatToFloat16 (float16ToFloat h)).toNat := by
      intro hresult
      rcases hnarrow.infinite.mp hresult with hwrong|hlarge
      · exact hinfinite (hwide.infinite.mp hwrong)
      · rw [hvalue] at hlarge
        linarith
    obtain ⟨hle,-⟩ := (hnarrow.nearest hnot).2 h.toNat hfinite
    rw [hvalue,sub_self,abs_zero] at hle
    exact Format.word_eq_of_value (sub_eq_zero.mp (abs_eq_zero.mp (le_antisymm hle (abs_nonneg _))))

end Widening

/-- Narrowing gives the nearest half and keeps what is no number, widening is
exact and its loop ends, and narrowing undoes widening. -/
theorem half_conversions :
    (∀ bits : UInt32,¬single.IsNaN bits.toNat →
      IsNarrowed bits.toNat (floatToFloat16 bits).toNat) ∧
    (∀ bits : UInt32,single.IsNaN bits.toNat → half.IsNaN (floatToFloat16 bits).toNat) ∧
    (∀ h : UInt16,IsWidened h.toNat (float16ToFloat h).toNat) ∧
    (∀ mantissa : UInt32,mantissa≠0 → mantissa.toNat < 2^10 →
      (normalize 10 mantissa (127-14)).1 &&& 0x400≠0 ∧
        ∀ more,normalize (10+more) mantissa (127-14)=normalize 10 mantissa (127-14)) ∧
    ∀ h : UInt16,¬half.IsNaN h.toNat → floatToFloat16 (float16ToFloat h)=h := by
  refine ⟨floatToFloat16_isNarrowed,floatToFloat16_nan,float16ToFloat_isWidened,
    fun mantissa hne hlt => ?_,floatToFloat16_float16ToFloat⟩
  have hpos : mantissa.toNat≠0 := fun hzero => hne (UInt32.toNat_inj.mp hzero)
  have hreach : 2^10 ≤ mantissa.toNat*2^10 := by omega
  obtain ⟨k,-,hfirst,-,hlow,hhigh⟩ :=
    @normalize_spec 10 mantissa (127-14) hreach (by omega) (by decide)
  refine ⟨fun hbit => ?_,fun more => normalize_enough hreach (by omega) more⟩
  rw [normalized_iff (by omega)] at hbit
  omega

end Hllm.HalfPrecision
