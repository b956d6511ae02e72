import KeyedQuery.Binary64.Shortest
import KeyedQuery.Proofs.Value.Finite
import Mathlib.Algebra.Group.Nat.Defs

/-!
# Integers nearest to a binary64 number

The interval of a number is meant to hold what rounds to it. For the integers this is proved here,
where the number is an integer itself: an integer rounds to the number exactly if it is in the
interval. At a power of two the interval reaches half as far down as up, since the integers below it
are rounded on a grid that is twice as fine.
-/

namespace KeyedQuery

/-- A quotient rounds to the number that is less than a half away, or a half if that is even. -/
theorem roundHalfEven_eq_iff {num den q : Nat} (hden : 0 < den) :
    roundHalfEven num den = q ↔
      2 * (q * den) ≤ 2 * num + den ∧ 2 * num ≤ 2 * (q * den) + den ∧
        (q % 2 = 1 → 2 * (q * den) < 2 * num + den ∧ 2 * num < 2 * (q * den) + den) := by
  have hnum := Nat.div_add_mod' num den
  have hrest : num % den < den := Nat.mod_lt num hden
  have hnext : (num / den + 1) * den = num / den * den + den := Nat.succ_mul _ _
  constructor
  · rintro rfl
    unfold roundHalfEven
    simp only
    split
    · omega
    · rw [hnext]
      omega
  · rintro ⟨hlow, hhigh, hodd⟩
    have hle : q < num / den + 2 := by
      refine Nat.lt_of_mul_lt_mul_right (a := den) ?_
      have htwo : (num / den + 2) * den = num / den * den + 2 * den := Nat.add_mul _ _ _
      omega
    have hge : num / den < q + 1 := by
      refine Nat.lt_of_mul_lt_mul_right (a := den) ?_
      have hsucc : (q + 1) * den = q * den + den := Nat.succ_mul _ _
      omega
    obtain rfl | rfl : q = num / den ∨ q = num / den + 1 := by omega
    · unfold roundHalfEven
      simp only
      rw [if_pos (by omega)]
    · unfold roundHalfEven
      simp only
      rw [hnext] at hlow hhigh hodd
      rw [if_neg (by omega)]

namespace BinaryFormat

variable {f : BinaryFormat} {num e : Nat}

/-- The nearest number to an integer, if its last bit is worth one or more. -/
theorem nearest_one (hmin : f.minExponent ≤ e) (h : num ≠ 0)
    (hlog : num.log2 = f.precision - 1 + e) :
    f.nearest num 1 =
      if roundHalfEven num (2 ^ e) = 2 ^ f.precision then (2 ^ (f.precision - 1), (e : Int) + 1)
      else (roundHalfEven num (2 ^ e), (e : Int)) := by
  have he : max f.minExponent ((num.log2 : Int) - (f.precision - 1 : Nat)) = e := by omega
  have hneg : (-(e : Int)).toNat = 0 := by omega
  unfold nearest
  rw [if_neg h, floorLog2_one h]
  simp only [he, hneg, Int.toNat_natCast, Nat.pow_eq, Nat.pow_zero, Nat.mul_one, Nat.one_mul]

/-- The exponent of the nearest number to an integer tells how great the integer is. -/
theorem log2_of_nearest_one {m : Nat} {exponent : Int} (h : num ≠ 0)
    (hmin : f.minExponent + 1 < exponent) (hnearest : f.nearest num 1 = (m, exponent)) :
    (num.log2 : Int) = (f.precision - 1 : Nat) + exponent ∨
      (num.log2 : Int) + 1 = (f.precision - 1 : Nat) + exponent := by
  unfold nearest at hnearest
  rw [if_neg h, floorLog2_one h] at hnearest
  simp only at hnearest
  split at hnearest
  · have hexponent := (Prod.mk.inj hnearest).2
    omega
  · have hexponent := (Prod.mk.inj hnearest).2
    omega

end BinaryFormat

namespace Binary64

open BinaryFormat (double)

/-- An integer is rounded on the grid that leaves it 53 bits. If it is rounded up beyond these, the
grid is twice as coarse. -/
theorem nearest_one {k e : Nat} (hlow : 2 ^ (52 + e) ≤ k) (hhigh : k < 2 ^ (53 + e)) :
    double.nearest k 1 = if roundHalfEven k (2 ^ e) = 2 ^ 53 then (2 ^ 52, (e : Int) + 1)
      else (roundHalfEven k (2 ^ e), (e : Int)) := by
  have hk : k ≠ 0 := Nat.ne_of_gt (Nat.lt_of_lt_of_le (Nat.pow_pos (by decide)) hlow)
  have hlog : k.log2 = double.precision - 1 + e :=
    (Nat.log2_eq_iff hk).2 ⟨hlow, by rwa [Nat.add_right_comm]⟩
  exact BinaryFormat.nearest_one (by simp only [double]; omega) hk hlog

namespace Finite

variable {x : Finite} {e : Nat}

/-- A number that is an integer and whose last bit is worth `2 ^ e`. -/
structure IsCoarse (x : Finite) (e : Nat) : Prop where
  exponent : x.exponent = e
  leading : 2 ^ 52 ≤ x.significand
  positive : 1 ≤ e

namespace IsCoarse

theorem significand_lt (x : Finite) : x.significand < 2 ^ 53 := x.fits.1

/-- How far the interval reaches down, in quarters of one. -/
def below (x : Finite) (e : Nat) : Nat := if x.significand = 2 ^ 52 then 2 ^ e else 2 * 2 ^ e

theorem below_le (x : Finite) (e : Nat) : below x e ≤ 2 * 2 ^ e := by
  unfold below
  split <;> omega

variable (h : IsCoarse x e)
include h

theorem truncate_eq : x.truncate =
    if x.negative then -((x.significand * 2 ^ e : Nat) : Int)
    else (x.significand * 2 ^ e : Nat) := by
  have hneg : (-(e : Int)).toNat = 0 := by omega
  simp only [truncate, h.exponent, hneg, Int.toNat_natCast, Nat.pow_eq, Nat.pow_zero, Nat.div_one]

theorem interval_eq : x.interval =
    ⟨4 * (x.significand * 2 ^ e) - below x e, 4 * (x.significand * 2 ^ e),
      4 * (x.significand * 2 ^ e) + 2 * 2 ^ e, 4, x.significand % 2 == 0⟩ := by
  have hmin : (-1074 : Int) < e := by omega
  have hneg : (-(e : Int)).toNat = 0 := by omega
  have hbelow : (if x.significand = 2 ^ 52 ∧ (-1074 : Int) < e then 1 else 2) * 2 ^ e =
      below x e := by
    unfold below
    by_cases heq : x.significand = 2 ^ 52
    · rw [if_pos ⟨heq, hmin⟩, if_pos heq, Nat.one_mul]
    · rw [if_neg fun h => heq h.1, if_neg heq]
  simp only [interval, h.exponent, hneg, Int.toNat_natCast, Nat.pow_eq]
  rw [Nat.sub_mul, hbelow, Nat.add_mul, Nat.mul_assoc]

theorem contains_iff (k : Nat) : x.interval.contains ⟨k, 0⟩ = true ↔
    4 * (x.significand * 2 ^ e) ≤ 4 * k + below x e ∧
      4 * k ≤ 4 * (x.significand * 2 ^ e) + 2 * 2 ^ e ∧
      (x.significand % 2 = 1 → 4 * (x.significand * 2 ^ e) < 4 * k + 2 * 2 ^ e ∧
        4 * k < 4 * (x.significand * 2 ^ e) + 2 * 2 ^ e) := by
  have hbelow : x.significand % 2 = 1 → below x e = 2 * 2 ^ e := fun hodd =>
    if_neg fun heq => by rw [heq] at hodd; exact absurd hodd (by decide)
  have hle : 2 * 2 ^ e ≤ 4 * (x.significand * 2 ^ e) := by
    rw [← Nat.mul_assoc]
    exact Nat.mul_le_mul_right _ (by have := h.leading; omega)
  have hdown := below_le x e
  rw [h.interval_eq]
  simp only [Interval.contains, Int.toNat_zero, Int.neg_zero, Nat.pow_eq, Nat.pow_zero,
    Nat.mul_one, beq_iff_eq]
  split
  · simp only [Bool.and_eq_true, decide_eq_true_eq]
    omega
  · simp only [Bool.and_eq_true, decide_eq_true_eq]
    have hodd := hbelow (by omega)
    omega

/-- The bounds within which integers may round to the number. -/
theorem bounds_of_contains {k : Nat} (hk : x.interval.contains ⟨k, 0⟩ = true) :
    2 ^ (51 + e) ≤ k ∧ k < 2 ^ (53 + e) := by
  obtain ⟨hlow, hhigh, -⟩ := (h.contains_iff k).1 hk
  have hdown := below_le x e
  have hleast : 2 ^ 52 * 2 ^ e ≤ x.significand * 2 ^ e := Nat.mul_le_mul_right _ h.leading
  have hgreatest : (x.significand + 1) * 2 ^ e ≤ 2 ^ 53 * 2 ^ e :=
    Nat.mul_le_mul_right _ (significand_lt x)
  have hpos : 0 < 2 ^ e := Nat.pow_pos (by decide)
  rw [Nat.succ_mul] at hgreatest
  rw [Nat.pow_add, Nat.pow_add]
  omega

theorem bounds_of_nearest {k : Nat} (hk : double.nearest k 1 = (x.significand, x.exponent)) :
    2 ^ (51 + e) ≤ k ∧ k < 2 ^ (53 + e) := by
  have hlead := h.leading
  have hpositive := h.positive
  have hzero : k ≠ 0 := by
    rintro rfl
    have hsignificand : x.significand = 0 := (Prod.mk.inj hk).1.symm
    omega
  have hlog := BinaryFormat.log2_of_nearest_one hzero (by simp only [double, h.exponent]; omega) hk
  rw [h.exponent] at hlog
  simp only [double] at hlog
  exact ⟨(Nat.le_log2 hzero).1 (by omega), (Nat.log2_lt hzero).1 (by omega)⟩

/-- An integer with as many bits as the number is rounded on the grid of the number. -/
theorem nearest_eq_iff_of_le {k : Nat} (hlow : 2 ^ (52 + e) ≤ k) (hhigh : k < 2 ^ (53 + e)) :
    double.nearest k 1 = (x.significand, x.exponent) ↔ x.interval.contains ⟨k, 0⟩ = true := by
  have hlt := significand_lt x
  have hround : double.nearest k 1 = (x.significand, (e : Int)) ↔
      roundHalfEven k (2 ^ e) = x.significand := by
    rw [nearest_one hlow hhigh]
    split <;> rw [Prod.mk.injEq] <;> omega
  rw [h.contains_iff, h.exponent, hround, roundHalfEven_eq_iff (Nat.pow_pos (by decide)), below]
  rw [Nat.pow_add] at hlow
  split
  · next heq =>
      rw [heq]
      omega
  · omega

/-- An integer with one bit less is rounded on a finer grid. It has to fill all its bits there, and
the number is a power of two. -/
theorem nearest_eq_iff_of_lt {k : Nat} (hlow : 2 ^ (51 + e) ≤ k) (hhigh : k < 2 ^ (52 + e)) :
    double.nearest k 1 = (x.significand, x.exponent) ↔ x.interval.contains ⟨k, 0⟩ = true := by
  have hlead := h.leading
  obtain ⟨d, rfl⟩ : ∃ d, e = d + 1 := ⟨e - 1, by have := h.positive; omega⟩
  have hround : double.nearest k 1 = (x.significand, ((d + 1 : Nat) : Int)) ↔
      x.significand = 2 ^ 52 ∧ roundHalfEven k (2 ^ d) = 2 ^ 53 := by
    have hlog : 52 + d = 51 + (d + 1) := by omega
    have hnext : 53 + d = 52 + (d + 1) := by omega
    rw [nearest_one (by rwa [hlog]) (by rwa [hnext])]
    split <;> rw [Prod.mk.injEq] <;> omega
  rw [h.contains_iff, h.exponent, hround, roundHalfEven_eq_iff (Nat.pow_pos (by decide))]
  rw [Nat.pow_add] at hhigh
  have htwice : 2 ^ (d + 1) = 2 * 2 ^ d := Nat.pow_succ'
  constructor
  · rintro ⟨heq, hround⟩
    rw [below, if_pos heq, heq]
    omega
  · rintro ⟨hdown, -, -⟩
    have heq : x.significand = 2 ^ 52 := by
      by_contra hne
      have hmore : (2 ^ 52 + 1) * 2 ^ (d + 1) ≤ x.significand * 2 ^ (d + 1) :=
        Nat.mul_le_mul_right _ (by omega)
      have hbelow := below_le x (d + 1)
      omega
    rw [below, if_pos heq, heq] at hdown
    omega

/-- An integer rounds to the number exactly if it is in the interval. -/
theorem nearest_eq_iff (k : Nat) : double.nearest k 1 = (x.significand, x.exponent) ↔
    x.interval.contains ⟨k, 0⟩ = true := by
  by_cases hbounds : 2 ^ (51 + e) ≤ k ∧ k < 2 ^ (53 + e)
  · rcases Nat.lt_or_ge k (2 ^ (52 + e)) with hlt | hge
    · exact h.nearest_eq_iff_of_lt hbounds.1 hlt
    · exact h.nearest_eq_iff_of_le hge hbounds.2
  · exact iff_of_false (fun hk => hbounds (h.bounds_of_nearest hk))
      fun hk => hbounds (h.bounds_of_contains hk)

end IsCoarse

end Finite

theorem ofInt_eq_finite_iff {x : Finite} {n : Int} : ofInt n = .finite x ↔
    x.negative = decide (n < 0) ∧ double.nearest n.natAbs 1 = (x.significand, x.exponent) := by
  rw [ofInt, ofRatio]
  obtain ⟨m, e⟩ := double.nearest n.natAbs 1
  constructor
  · intro h
    simp only at h
    split at h
    · obtain rfl := finite.inj h
      exact ⟨rfl, rfl⟩
    · cases h
  · rintro ⟨hnegative, hnearest⟩
    obtain ⟨rfl, rfl⟩ := Prod.mk.inj hnearest
    simp only [dif_pos x.fits, ← hnegative]

/-- The integers that round to a number are those of its sign in its interval. -/
theorem Finite.IsCoarse.ofInt_eq_iff {x : Finite} {e : Nat} (h : x.IsCoarse e) {n : Int} :
    ofInt n = .finite x ↔
      x.negative = decide (n < 0) ∧ x.interval.contains ⟨n.natAbs, 0⟩ = true := by
  rw [ofInt_eq_finite_iff, h.nearest_eq_iff]

end Binary64

end KeyedQuery
