/-!
# Binary64 numbers

A binary64 number is finite, infinite or not a number. A finite one is a sign, a significand and an
exponent, and its value is `significand * 2 ^ exponent` with that sign; zero has both signs. The
ranges of a format are a field of the type, so every value of `Binary64.Finite` is a number that
the 64 bits can hold, in its one canonical form.

Arithmetic on these numbers is exact arithmetic on natural numbers. No operation here rounds:
`KeyedQuery.Binary64.Rounding` is the one place that does.
-/

namespace KeyedQuery

/-- A binary floating-point format: the bits of a significand, and the least and the greatest
exponent of its last bit. -/
structure BinaryFormat where
  precision : Nat
  minExponent : Int
  maxExponent : Int

namespace BinaryFormat

def double : BinaryFormat := ⟨53, -1074, 971⟩

def single : BinaryFormat := ⟨24, -149, 104⟩

/-- The significand and the exponent are in canonical form: both are in range, and the leading bit
of the significand is set unless the exponent is the least one. -/
def Fits (f : BinaryFormat) (significand : Nat) (exponent : Int) : Prop :=
  significand < Nat.pow 2 f.precision ∧ f.minExponent ≤ exponent ∧ exponent ≤ f.maxExponent ∧
    (Nat.pow 2 (f.precision - 1) ≤ significand ∨ exponent = f.minExponent)

instance (f : BinaryFormat) (m : Nat) (e : Int) : Decidable (f.Fits m e) := by
  unfold Fits
  infer_instance

end BinaryFormat

structure Binary64.Finite where
  negative : Bool
  significand : Nat
  exponent : Int
  fits : BinaryFormat.double.Fits significand exponent
deriving DecidableEq

/-- A binary64 number. There is one value that is not a number. -/
inductive Binary64 where
  | finite (x : Binary64.Finite)
  | infinite (negative : Bool)
  | nan
deriving DecidableEq

namespace Binary64

namespace Finite

def zero (negative : Bool) : Finite :=
  ⟨negative, 0, -1074, by decide⟩

def truncate (x : Finite) : Int :=
  let magnitude := x.significand * Nat.pow 2 x.exponent.toNat / Nat.pow 2 (-x.exponent).toNat
  if x.negative then -(magnitude : Int) else magnitude

end Finite

def isFinite : Binary64 → Bool
  | finite _ => true
  | infinite _ => false
  | nan => false

def isZero : Binary64 → Bool
  | finite x => x.significand == 0
  | infinite _ => false
  | nan => false

/-- The nearest signed word: itself if it fits, and otherwise the end of the range on its side. -/
def clampInt64 (n : Int) : Int64 :=
  if n < -9223372036854775808 then Int64.minValue
  else if n < 9223372036854775808 then Int64.ofInt n
  else Int64.maxValue

@[simp] theorem isFinite_finite (x : Finite) : (finite x).isFinite = true := rfl

@[simp] theorem isFinite_infinite (s : Bool) : (infinite s).isFinite = false := rfl

@[simp] theorem isFinite_nan : nan.isFinite = false := rfl

end Binary64

end KeyedQuery
