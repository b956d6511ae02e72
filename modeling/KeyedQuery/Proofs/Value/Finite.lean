import KeyedQuery.Proofs.Canonical.Condition
import KeyedQuery.Proofs.Result

/-!
# Finite numbers

A value read from JSON holds no infinite number and nothing that is not a number: the integers of a
document have 64 bits, so the binary64 number nearest to one of them is in range, and the other
numbers of a document are finite as they stand.
-/

namespace KeyedQuery

/-! ## Integers in a binary format -/

theorem floorLog2_one {num : Nat} (h : num ≠ 0) : floorLog2 num 1 = num.log2 := by
  have hlog : 2 ^ num.log2 ≤ num := Nat.log2_self_le h
  have hone : Nat.log2 1 = 0 := by decide
  simp [floorLog2, hlog, hone]

theorem roundHalfEven_bounds (num den : Nat) :
    num / den ≤ roundHalfEven num den ∧ roundHalfEven num den ≤ num / den + 1 := by
  unfold roundHalfEven
  simp only
  split <;> omega

namespace BinaryFormat

variable {f : BinaryFormat}

theorem scaled_lt {num : Nat} {e : Int} (he : (num.log2 : Int) + 1 ≤ f.precision + e) :
    num * Nat.pow 2 (-e).toNat / (1 * Nat.pow 2 e.toNat) < Nat.pow 2 f.precision := by
  have hpos : 0 < Nat.pow 2 e.toNat := Nat.pow_pos (by decide)
  rw [Nat.one_mul, Nat.div_lt_iff_lt_mul hpos]
  calc num * 2 ^ (-e).toNat
      < 2 ^ (num.log2 + 1) * 2 ^ (-e).toNat :=
        Nat.mul_lt_mul_of_pos_right Nat.lt_log2_self (Nat.pow_pos (by decide))
    _ = 2 ^ (num.log2 + 1 + (-e).toNat) := (Nat.pow_add _ _ _).symm
    _ ≤ 2 ^ (f.precision + e.toNat) := Nat.pow_le_pow_right (by decide) (by omega)
    _ = 2 ^ f.precision * 2 ^ e.toNat := Nat.pow_add _ _ _

theorem le_scaled {num : Nat} {e : Int} (h : num ≠ 0)
    (he : (f.precision - 1 : Nat) + e ≤ (num.log2 : Int)) :
    Nat.pow 2 (f.precision - 1) ≤ num * Nat.pow 2 (-e).toNat / (1 * Nat.pow 2 e.toNat) := by
  have hpos : 0 < Nat.pow 2 e.toNat := Nat.pow_pos (by decide)
  rw [Nat.one_mul, Nat.le_div_iff_mul_le hpos]
  calc 2 ^ (f.precision - 1) * 2 ^ e.toNat
      = 2 ^ (f.precision - 1 + e.toNat) := (Nat.pow_add _ _ _).symm
    _ ≤ 2 ^ (num.log2 + (-e).toNat) := Nat.pow_le_pow_right (by decide) (by omega)
    _ = 2 ^ num.log2 * 2 ^ (-e).toNat := Nat.pow_add _ _ _
    _ ≤ num * 2 ^ (-e).toNat := Nat.mul_le_mul_right _ (Nat.log2_self_le h)

/-- What is nearest to an integer that is not too great is in range. -/
theorem fits_nearest_one (num : Nat) (hp : 0 < f.precision)
    (hexponents : f.minExponent < f.maxExponent)
    (hnum : (num.log2 : Int) < f.maxExponent + (f.precision - 1 : Nat)) :
    f.Fits (f.nearest num 1).1 (f.nearest num 1).2 := by
  have hpow : Nat.pow 2 (f.precision - 1) < Nat.pow 2 f.precision :=
    Nat.pow_lt_pow_right (by decide) (by omega)
  unfold nearest
  split
  · exact ⟨Nat.pow_pos (by decide), Int.le_refl _, Int.le_of_lt hexponents, .inr rfl⟩
  · next h =>
      simp only [floorLog2_one h]
      generalize he : max f.minExponent ((num.log2 : Int) - (f.precision - 1 : Nat)) = e
      have hround := roundHalfEven_bounds (num * Nat.pow 2 (-e).toNat) (1 * Nat.pow 2 e.toNat)
      have hprecision : (num.log2 : Int) + 1 ≤ f.precision + e := by omega
      have hlt := scaled_lt hprecision
      split
      · -- Rounding up has filled all bits, and the exponent goes up by one.
        exact ⟨hpow, by omega, by omega, .inl (Nat.le_refl _)⟩
      · next hne =>
          refine ⟨by omega, by omega, by omega, ?_⟩
          by_cases hmin : e = f.minExponent
          · exact .inr hmin
          · exact .inl (Nat.le_trans (le_scaled h (by omega)) hround.1)

end BinaryFormat

theorem Binary64.isFinite_ofInt {n : Int}
    (h : -9223372036854775808 ≤ n ∧ n < 18446744073709551616) : (ofInt n).isFinite = true := by
  have hlog : n.natAbs.log2 ≤ 63 := by
    by_cases h0 : n.natAbs = 0
    · rw [h0]
      decide
    · exact Nat.le_of_lt_succ ((Nat.log2_lt h0).2 (by omega))
  have hfits := BinaryFormat.fits_nearest_one (f := BinaryFormat.double) n.natAbs
    (by decide) (by decide) (by simp only [BinaryFormat.double]; omega)
  rw [ofInt, ofRatio]
  simp only [hfits, dite_true]
  rfl

/-! ## Values -/

namespace Value

theorem eachFinite_iff {items : List Value} :
    eachFinite items = true ↔ ∀ v ∈ items, v.allFinite = true := by
  induction items with
  | nil => simp [eachFinite]
  | cons v rest ih => rw [eachFinite, Bool.and_eq_true, ih, List.forall_mem_cons]

theorem allFinite_ofNumber (n : Json.Number) : (ofNumber n).allFinite = true := by
  cases n with
  | real x => rfl
  | int n inRange =>
      simp only [ofNumber]
      split
      · rfl
      · exact Binary64.isFinite_ofInt inRange

mutual

/-- A JSON value is refused as a value, or read as one in which every number is finite. -/
theorem ends_ofJson : ∀ j : Json,
    Result.Ends (·.isMalformed = true) (·.allFinite = true) (ofJson j)
  | .null => rfl
  | .bool _ => rfl
  | .num n => allFinite_ofNumber n
  | .str _ => rfl
  | .arr items => (ends_ofJsonAll items).bind fun _ h => h
  | .obj _ => rfl

theorem ends_ofJsonAll : ∀ items : List Json,
    Result.Ends (·.isMalformed = true) (eachFinite · = true) (ofJsonAll items)
  | [] => rfl
  | j :: rest =>
      (ends_ofJson j).bind fun _ hv => (ends_ofJsonAll rest).bind fun _ hrest =>
        Bool.and_eq_true_iff.2 ⟨hv, hrest⟩

end

end Value

end KeyedQuery
