import KeyedQuery.Binary64.Basic
import KeyedQuery.Numeral.Decimal

/-!
# Rounding to binary64

Every number enters the binary64 format by one rule: the exact value is rounded to the nearest
number of the format, and a value half way between two goes to the one with an even significand.
A value that rounds beyond the greatest finite number becomes infinite, one that rounds below the
least becomes zero, and the sign is kept in both cases.
-/

namespace KeyedQuery

/-- The quotient rounded to the nearest natural number, a half to the even neighbour. -/
def roundHalfEven (num den : Nat) : Nat :=
  let q := num / den
  let r := num % den
  if 2 * r < den ∨ (2 * r = den ∧ q % 2 = 0) then q else q + 1

/-- The greatest `k` with `2 ^ k ≤ num / den`, for positive `num` and `den`. -/
def floorLog2 (num den : Nat) : Int :=
  let k := (num.log2 : Int) - den.log2
  if den * Nat.pow 2 k.toNat ≤ num * Nat.pow 2 (-k).toNat then k else k - 1

/-- The significand and the exponent nearest to `num / den`. The exponent exceeds the greatest one
of the format exactly when the value overflows. -/
def BinaryFormat.nearest (f : BinaryFormat) (num den : Nat) : Nat × Int :=
  if num = 0 then (0, f.minExponent)
  else
    let e := max f.minExponent (floorLog2 num den - (f.precision - 1 : Nat))
    let m := roundHalfEven (num * Nat.pow 2 (-e).toNat) (den * Nat.pow 2 e.toNat)
    if m = Nat.pow 2 f.precision then (Nat.pow 2 (f.precision - 1), e + 1) else (m, e)

namespace Binary64

def ofRatio (negative : Bool) (num den : Nat) : Binary64 :=
  let (m, e) := BinaryFormat.double.nearest num den
  if h : BinaryFormat.double.Fits m e then .finite ⟨negative, m, e, h⟩ else .infinite negative

def ofInt (n : Int) : Binary64 :=
  ofRatio (decide (n < 0)) n.natAbs 1

inductive Extent where
  /-- Zero, or too near to zero for any format. -/
  | negligible
  /-- The quotient of two natural numbers. -/
  | quotient (num den : Nat)
  /-- Beyond the range of any format. -/
  | beyond

/-- Where a decimal number lies, told from the place of its leading digit, so that a power of ten
is formed only when a format may hold the number. -/
def Extent.ofDecimal (d : Numeral.Decimal) : Extent :=
  let leading := ((Nat.toDigits 10 d.digits).length : Int) + d.exponent
  if d.digits = 0 ∨ leading < -400 then .negligible
  else if 400 < leading then .beyond
  else .quotient (d.digits * Nat.pow 10 d.exponent.toNat) (Nat.pow 10 (-d.exponent).toNat)

def ofDecimal (negative : Bool) (d : Numeral.Decimal) : Binary64 :=
  match Extent.ofDecimal d with
  | .negligible => .finite (Finite.zero negative)
  | .quotient num den => ofRatio negative num den
  | .beyond => .infinite negative

/-- The binary64 number that equals the number of 32 bits nearest to a decimal number. -/
def ofDecimalSingle (negative : Bool) (d : Numeral.Decimal) : Binary64 :=
  match Extent.ofDecimal d with
  | .negligible => .finite (Finite.zero negative)
  | .quotient num den =>
      let (m, e) := BinaryFormat.single.nearest num den
      if BinaryFormat.single.Fits m e then
        ofRatio negative (m * Nat.pow 2 e.toNat) (Nat.pow 2 (-e).toNat)
      else .infinite negative
  | .beyond => .infinite negative

end Binary64

end KeyedQuery
