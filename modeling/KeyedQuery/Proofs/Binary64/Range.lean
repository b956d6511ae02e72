import KeyedQuery.Proofs.Binary64.Nearest
import Mathlib.Algebra.Order.Field.Power
import Mathlib.Algebra.Order.Floor.Ring
import Mathlib.Data.Rat.Floor
import Mathlib.Tactic.FieldSimp
import Mathlib.Tactic.Linarith
import Mathlib.Tactic.NormNum
import Mathlib.Tactic.Positivity

/-!
# The range of binary64 numbers

Numbers and numerals have exact values, which are rational. What is rounded stays finite up to a
bound half way between the greatest number of a format and the one that would come next, and a
finite number loses nothing but its fraction when its integer part is taken.
-/

namespace KeyedQuery

/-! ## Quotients of scaled numbers -/

theorem zpow_eq_div (q : ℚ) (e : Int) : q ^ e = q ^ e.toNat / q ^ (-e).toNat := by
  rcases Int.le_total 0 e with h | h
  · obtain ⟨n, rfl⟩ := Int.eq_ofNat_of_zero_le h
    simp
  · obtain ⟨n, hn⟩ := Int.eq_ofNat_of_zero_le (Int.neg_nonneg.2 h)
    obtain rfl : e = -(n : Int) := by omega
    simp

variable {num den : Nat}

/-- A quotient is scaled by a power of two on one side, so that it stays one of natural numbers. -/
theorem scaled_lt_iff (hden : den ≠ 0) (c : Nat) (e : Int) :
    num * Nat.pow 2 (-e).toNat < c * (den * Nat.pow 2 e.toNat) ↔ (num : ℚ) / den < c * 2 ^ e := by
  have hpos : (0 : ℚ) < den := by exact_mod_cast Nat.pos_of_ne_zero hden
  have hscale : (0 : ℚ) < 2 ^ (-e).toNat := by positivity
  rw [zpow_eq_div, div_lt_iff₀ hpos, mul_div_assoc', div_mul_eq_mul_div, lt_div_iff₀ hscale,
    mul_assoc, mul_comm ((2 : ℚ) ^ e.toNat)]
  exact_mod_cast Iff.rfl

theorem le_scaled_iff (hden : den ≠ 0) (c : Nat) (e : Int) :
    c * (den * Nat.pow 2 e.toNat) ≤ num * Nat.pow 2 (-e).toNat ↔ (c * 2 ^ e : ℚ) ≤ num / den := by
  rw [← not_lt, ← not_lt, scaled_lt_iff hden]

theorem two_zpow_log2_le (h : num ≠ 0) : (2 : ℚ) ^ (num.log2 : Int) ≤ num := by
  rw [zpow_natCast]
  exact_mod_cast Nat.log2_self_le h

theorem lt_two_zpow_log2 (num : Nat) : (num : ℚ) < 2 ^ ((num.log2 : Int) + 1) := by
  have hlt : num < 2 ^ (num.log2 + 1) := Nat.lt_log2_self
  rw [← Nat.cast_succ, zpow_natCast]
  exact_mod_cast hlt

theorem floorLog2_spec (hnum : num ≠ 0) (hden : den ≠ 0) :
    (2 : ℚ) ^ floorLog2 num den ≤ num / den ∧ (num : ℚ) / den < 2 ^ (floorLog2 num den + 1) := by
  have htwo : (2 : ℚ) ≠ 0 := two_ne_zero
  have hpos : (0 : ℚ) < den := by exact_mod_cast Nat.pos_of_ne_zero hden
  have hle := @le_scaled_iff num den hden 1 ((num.log2 : Int) - den.log2)
  rw [Nat.one_mul, Nat.cast_one, one_mul] at hle
  unfold floorLog2
  simp only [hle]
  split
  · next h =>
      refine ⟨h, ?_⟩
      rw [div_lt_iff₀ hpos]
      calc (num : ℚ) < 2 ^ ((num.log2 : Int) + 1) := lt_two_zpow_log2 num
        _ = 2 ^ ((num.log2 : Int) - den.log2 + 1) * 2 ^ (den.log2 : Int) := by
            rw [← zpow_add₀ htwo]
            congr 1
            omega
        _ ≤ 2 ^ ((num.log2 : Int) - den.log2 + 1) * den := by
            gcongr
            exact two_zpow_log2_le hden
  · next h =>
      rw [sub_add_cancel]
      refine ⟨?_, not_le.1 h⟩
      rw [le_div_iff₀ hpos]
      calc (2 : ℚ) ^ ((num.log2 : Int) - den.log2 - 1) * den
          ≤ 2 ^ ((num.log2 : Int) - den.log2 - 1) * 2 ^ ((den.log2 : Int) + 1) := by
            gcongr
            exact (lt_two_zpow_log2 den).le
        _ = 2 ^ (num.log2 : Int) := by
            rw [← zpow_add₀ htwo]
            congr 1
            omega
        _ ≤ num := two_zpow_log2_le hnum

/-- A number with few digits is rounded to the least number with one more from half way on. -/
theorem roundHalfEven_eq_pow_iff {p : Nat} (hp : 0 < p) (hden : 0 < den)
    (hlt : num < 2 ^ p * den) :
    roundHalfEven num den = 2 ^ p ↔ (2 ^ (p + 1) - 1) * den ≤ 2 * num := by
  have heven : 2 ^ p % 2 = 0 := by
    obtain ⟨q, rfl⟩ := Nat.exists_eq_succ_of_ne_zero hp.ne'
    rw [Nat.pow_succ, Nat.mul_mod_left]
  have hdouble : (2 ^ (p + 1) - 1) * den = 2 * (2 ^ p * den) - den := by
    rw [Nat.sub_mul, Nat.one_mul, Nat.pow_succ, Nat.mul_comm (2 ^ p) 2, Nat.mul_assoc]
  have hle : den ≤ 2 ^ p * den := Nat.le_mul_of_pos_left den (by positivity)
  rw [roundHalfEven_eq_iff hden, hdouble]
  omega

def Numeral.Decimal.value (d : Numeral.Decimal) : ℚ := d.digits * 10 ^ d.exponent

namespace BinaryFormat

variable (f : BinaryFormat)

/-- Half way between the greatest number of the format on the grid of an exponent and the number
that comes next on this grid. -/
def halfway (e : Int) : ℚ := (2 ^ (f.precision + 1) - 1 : Nat) * 2 ^ (e - 1)

/-- From here on numbers are rounded beyond the greatest one of the format. -/
def overflow : ℚ := f.halfway f.maxExponent

variable {f} {e e' : Int}

theorem halfway_le_halfway (h : e ≤ e') : f.halfway e ≤ f.halfway e' := by
  unfold halfway
  gcongr
  norm_num

theorem halfway_le_two_zpow (f : BinaryFormat) (e : Int) :
    f.halfway e ≤ 2 ^ (f.precision + e) := by
  calc f.halfway e ≤ (2 ^ (f.precision + 1) : Nat) * 2 ^ (e - 1) := by
        unfold halfway
        gcongr
        exact Nat.sub_le _ _
    _ = 2 ^ (f.precision + e) := by
        rw [Nat.cast_pow, Nat.cast_ofNat, ← zpow_natCast, ← zpow_add₀ two_ne_zero]
        congr 1
        omega

theorem two_zpow_le_halfway (f : BinaryFormat) (e : Int) :
    2 ^ (f.precision + (e - 1)) ≤ f.halfway e := by
  have hle : 2 ^ f.precision ≤ 2 ^ (f.precision + 1) - 1 := by
    have hpos : 0 < 2 ^ f.precision := by positivity
    rw [Nat.pow_succ]
    omega
  calc (2 : ℚ) ^ (f.precision + (e - 1)) = (2 ^ f.precision : Nat) * 2 ^ (e - 1) := by
        rw [zpow_add₀ two_ne_zero, Nat.cast_pow, Nat.cast_ofNat, zpow_natCast]
    _ ≤ f.halfway e := by
        unfold halfway
        gcongr

theorem halfway_le_iff (hden : den ≠ 0) : f.halfway e ≤ num / den ↔
    (2 ^ (f.precision + 1) - 1) * (den * Nat.pow 2 e.toNat) ≤
      2 * (num * Nat.pow 2 (-e).toNat) := by
  rw [← Nat.mul_assoc 2, le_scaled_iff hden, halfway, zpow_sub_one₀ two_ne_zero, Nat.cast_mul,
    Nat.cast_ofNat, mul_div_assoc, ← mul_assoc, ← div_eq_mul_inv, div_le_iff₀' two_pos]

/-- What is rounded up to the grid of the next exponent. -/
theorem succ_le_maxExponent_iff {q : ℚ} (hle : f.halfway e ≤ q) (hlt : q < 2 ^ (f.precision + e)) :
    e + 1 ≤ f.maxExponent ↔ q < f.overflow := by
  constructor
  · intro hmax
    calc q < 2 ^ (f.precision + (e + 1 - 1)) := by rwa [add_sub_cancel_right]
      _ ≤ f.halfway (e + 1) := two_zpow_le_halfway f _
      _ ≤ f.overflow := halfway_le_halfway hmax
  · intro hq
    by_contra hmax
    have hoverflow : f.overflow ≤ f.halfway e := halfway_le_halfway (by omega)
    exact absurd (hoverflow.trans hle) (not_le.2 hq)

/-- What stays on the grid of its exponent, with its leading bit unless the exponent is the least.
-/
theorem le_maxExponent_iff {q : ℚ} (hrange : f.minExponent < f.maxExponent)
    (hlt : q < f.halfway e) (hle : f.minExponent < e → 2 ^ (f.precision + (e - 1)) ≤ q) :
    e ≤ f.maxExponent ↔ q < f.overflow := by
  constructor
  · exact fun hmax => hlt.trans_le (halfway_le_halfway hmax)
  · intro hq
    by_contra hmax
    have hoverflow : f.overflow ≤ 2 ^ (f.precision + (e - 1)) :=
      (halfway_le_two_zpow f _).trans (zpow_le_zpow_right₀ one_le_two (by omega))
    exact absurd (hoverflow.trans (hle (by omega))) (not_le.2 hq)

/-- What is nearest to a quotient is in range exactly if the quotient is below the bound. -/
theorem fits_nearest_iff (hp : 0 < f.precision) (hrange : f.minExponent < f.maxExponent)
    (hden : den ≠ 0) :
    f.Fits (f.nearest num den).1 (f.nearest num den).2 ↔ (num : ℚ) / den < f.overflow := by
  unfold nearest
  split
  · next hnum =>
      have hpos : (0 : ℚ) < f.overflow := lt_of_lt_of_le (by positivity) (two_zpow_le_halfway f _)
      rw [hnum, Nat.cast_zero, zero_div]
      exact iff_of_true ⟨Nat.pow_pos (by decide), le_rfl, hrange.le, .inr rfl⟩ hpos
  · next hnum =>
      obtain ⟨hlow, hhigh⟩ := floorLog2_spec hnum hden
      generalize floorLog2 num den = k at hlow hhigh
      simp only
      generalize he : max f.minExponent (k - (f.precision - 1 : Nat)) = e
      have hpos : 0 < den * Nat.pow 2 e.toNat :=
        Nat.mul_pos (Nat.pos_of_ne_zero hden) (Nat.pow_pos (by decide))
      have hlt : (num : ℚ) / den < 2 ^ (f.precision + e) :=
        hhigh.trans_le (zpow_le_zpow_right₀ one_le_two (by omega))
      have hle (hmin : f.minExponent < e) : (2 : ℚ) ^ (f.precision + (e - 1)) ≤ num / den :=
        (zpow_le_zpow_right₀ one_le_two (by omega)).trans hlow
      have hscaled : num * Nat.pow 2 (-e).toNat < 2 ^ f.precision * (den * Nat.pow 2 e.toNat) := by
        rw [scaled_lt_iff hden]
        rwa [zpow_add₀ two_ne_zero, zpow_natCast, ← Nat.cast_ofNat, ← Nat.cast_pow] at hlt
      have hcarry := roundHalfEven_eq_pow_iff hp hpos hscaled
      rw [← halfway_le_iff hden] at hcarry
      split
      · next hm =>
          have hpow : Nat.pow 2 (f.precision - 1) < Nat.pow 2 f.precision :=
            Nat.pow_lt_pow_right (by decide) (by omega)
          rw [← succ_le_maxExponent_iff (hcarry.1 hm) hlt]
          exact ⟨fun hfits => hfits.2.2.1, fun hmax => ⟨hpow, by omega, hmax, .inl le_rfl⟩⟩
      · next hm =>
          rw [← le_maxExponent_iff hrange (not_le.1 (hcarry.not.1 hm)) hle]
          refine ⟨fun hfits => hfits.2.2.1, fun hmax => ?_⟩
          obtain ⟨hquotient, hround⟩ := roundHalfEven_bounds (num * Nat.pow 2 (-e).toNat)
            (den * Nat.pow 2 e.toNat)
          have hfew := hround.trans ((Nat.div_lt_iff_lt_mul hpos).2 hscaled)
          refine ⟨lt_of_le_of_ne hfew hm, by omega, hmax, ?_⟩
          rcases eq_or_ne e f.minExponent with hmin | hmin
          · exact .inr hmin
          · -- The leading bit is set, as the exponent is the one of the logarithm.
            refine .inl (le_trans ?_ hquotient)
            rw [Nat.le_div_iff_mul_le hpos, le_scaled_iff hden, Nat.pow_eq, Nat.cast_pow,
              Nat.cast_ofNat, ← zpow_natCast, ← zpow_add₀ two_ne_zero]
            exact (zpow_le_zpow_right₀ one_le_two (by omega)).trans hlow

end BinaryFormat

namespace Binary64

/-- From here on numbers are rounded to an infinite one. -/
theorem overflow_double : BinaryFormat.double.overflow = 2 ^ 1024 - 2 ^ 970 := by
  calc BinaryFormat.double.overflow = (2 ^ 54 - 1) * 2 ^ 970 := by
        norm_num [BinaryFormat.overflow, BinaryFormat.halfway, BinaryFormat.double]
    _ = 2 ^ 1024 - 2 ^ 970 := by rw [sub_one_mul, ← pow_add]

theorem isFinite_ofRatio_iff (negative : Bool) (hden : den ≠ 0) :
    (ofRatio negative num den).isFinite = true ↔ (num : ℚ) / den < 2 ^ 1024 - 2 ^ 970 := by
  rw [← overflow_double, ← BinaryFormat.fits_nearest_iff (by decide) (by decide) hden, ofRatio]
  simp only
  split
  · next h => simpa using h
  · next h => simpa using h

theorem one_lt_bound : (1 : ℚ) < 2 ^ 1024 - 2 ^ 970 := by
  calc (1 : ℚ) < 2 ^ 970 := one_lt_pow₀ one_lt_two (by decide)
    _ = 2 ^ 971 - 2 ^ 970 := by rw [pow_succ (2 : ℚ) 970, mul_two, add_sub_cancel_right]
    _ ≤ 2 ^ 1024 - 2 ^ 970 := sub_le_sub_right (pow_le_pow_right₀ one_le_two (by decide)) _

theorem bound_le_ten_pow : (2 : ℚ) ^ 1024 - 2 ^ 970 ≤ 10 ^ 400 := by
  calc (2 : ℚ) ^ 1024 - 2 ^ 970 ≤ 2 ^ 1024 := sub_le_self _ (by positivity)
    _ ≤ 2 ^ (3 * 400) := pow_le_pow_right₀ one_le_two (by decide)
    _ = 8 ^ 400 := by
        rw [pow_mul]
        norm_num only
    _ ≤ 10 ^ 400 := pow_le_pow_left₀ (by norm_num only) (by norm_num only) 400

theorem digits_bounds {n : Nat} (h : n ≠ 0) :
    (10 : ℚ) ^ ((Nat.toDigits 10 n).length - 1 : Int) ≤ n ∧
      (n : ℚ) < 10 ^ ((Nat.toDigits 10 n).length : Int) := by
  have hpos : 0 < (Nat.toDigits 10 n).length := Nat.length_toDigits_pos
  have hcount (k : Nat) (hk : 0 < k) : (Nat.toDigits 10 n).length ≤ k ↔ n < 10 ^ k :=
    Nat.length_toDigits_le_iff (by decide) hk
  obtain ⟨k, hk⟩ := Nat.exists_eq_succ_of_ne_zero hpos.ne'
  have hlt := (hcount _ hpos).1 le_rfl
  have hle : 10 ^ k ≤ n := by
    rcases Nat.eq_zero_or_pos k with rfl | hkpos
    · exact Nat.pos_of_ne_zero h
    · by_contra hgt
      have hshort := (hcount k hkpos).2 (not_le.1 hgt)
      omega
  rw [hk] at hlt ⊢
  rw [Nat.cast_succ, add_sub_cancel_right, ← Nat.cast_succ, zpow_natCast, zpow_natCast]
  exact ⟨by exact_mod_cast hle, by exact_mod_cast hlt⟩

/-- The place of the leading digit tells the size of a decimal. -/
theorem value_bounds {d : Numeral.Decimal} (h : d.digits ≠ 0) :
    (10 : ℚ) ^ ((Nat.toDigits 10 d.digits).length + d.exponent - 1 : Int) ≤ d.value ∧
      d.value < 10 ^ ((Nat.toDigits 10 d.digits).length + d.exponent : Int) := by
  obtain ⟨hle, hlt⟩ := digits_bounds h
  have hten : (10 : ℚ) ≠ 0 := by norm_num
  unfold Numeral.Decimal.value
  constructor
  · rw [add_sub_right_comm, zpow_add₀ hten]
    gcongr
  · rw [zpow_add₀ hten]
    gcongr

/-- A decimal is rounded to a finite number exactly if it is below the bound. -/
theorem isFinite_ofDecimal_iff (negative : Bool) (d : Numeral.Decimal) :
    (ofDecimal negative d).isFinite = true ↔ d.value < 2 ^ 1024 - 2 ^ 970 := by
  have hten : (1 : ℚ) ≤ 10 := by norm_num
  unfold ofDecimal Extent.ofDecimal
  simp only
  split_ifs with hsmall hgreat
  · refine iff_of_true rfl (lt_of_le_of_lt ?_ one_lt_bound)
    rcases eq_or_ne d.digits 0 with hzero | hzero
    · simp [Numeral.Decimal.value, hzero]
    · have hleading := hsmall.resolve_left hzero
      calc d.value ≤ 10 ^ ((Nat.toDigits 10 d.digits).length + d.exponent : Int) :=
            (value_bounds hzero).2.le
        _ ≤ 1 := zpow_le_one_of_nonpos₀ hten (by omega)
  · refine iff_of_false Bool.false_ne_true (not_lt.2 ?_)
    calc (2 : ℚ) ^ 1024 - 2 ^ 970 ≤ 10 ^ ((400 : Nat) : Int) := by
          rw [zpow_natCast]
          exact bound_le_ten_pow
      _ ≤ 10 ^ ((Nat.toDigits 10 d.digits).length + d.exponent - 1 : Int) :=
          zpow_le_zpow_right₀ hten (by omega)
      _ ≤ d.value := (value_bounds fun h => hsmall (.inl h)).1
  · have hden : Nat.pow 10 (-d.exponent).toNat ≠ 0 := (Nat.pow_pos (by decide)).ne'
    have hvalue : ((d.digits * Nat.pow 10 d.exponent.toNat : Nat) : ℚ) /
        (Nat.pow 10 (-d.exponent).toNat : Nat) = d.value := by
      rw [Numeral.Decimal.value, zpow_eq_div, mul_div_assoc']
      simp only [Nat.pow_eq, Nat.cast_mul, Nat.cast_pow, Nat.cast_ofNat]
    rw [← hvalue]
    exact isFinite_ofRatio_iff negative hden

/-! ## Integer parts -/

def Finite.value (x : Finite) : ℚ :=
  if x.negative then -(x.significand * 2 ^ x.exponent) else x.significand * 2 ^ x.exponent

def integerPart (q : ℚ) : Int := if q < 0 then ⌈q⌉ else ⌊q⌋

theorem Finite.truncate_eq (x : Finite) : x.truncate = integerPart x.value := by
  have hfloor : ⌊(x.significand * 2 ^ x.exponent : ℚ)⌋ =
      (x.significand * Nat.pow 2 x.exponent.toNat / Nat.pow 2 (-x.exponent).toNat : Nat) := by
    rw [zpow_eq_div, mul_div_assoc', Int.natCast_ediv, ← Rat.floor_natCast_div_natCast]
    simp only [Nat.pow_eq, Nat.cast_mul, Nat.cast_pow, Nat.cast_ofNat]
  have hnonneg : (0 : ℚ) ≤ x.significand * 2 ^ x.exponent := by positivity
  unfold truncate integerPart value
  simp only [← hfloor]
  split
  · split
    · rw [Int.ceil_neg]
    · next h =>
        obtain hzero := le_antisymm (neg_nonneg.1 (not_lt.1 h)) hnonneg
        rw [hzero]
        simp
  · rw [if_neg (not_lt.2 hnonneg)]

theorem toInt_clampInt64 (n : Int) :
    (clampInt64 n).toInt = max (-9223372036854775808) (min n 9223372036854775807) := by
  unfold clampInt64
  split_ifs with hlow hhigh
  · rw [Int64.toInt_minValue]
    omega
  · rw [Int64.toInt_ofInt_of_le (by omega) (by omega)]
    omega
  · rw [Int64.toInt_maxValue]
    omega

end Binary64

end KeyedQuery
