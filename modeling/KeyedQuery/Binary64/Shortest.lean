import KeyedQuery.Binary64.Basic
import KeyedQuery.Numeral.Decimal

/-!
# The shortest decimal that reads back

The reals that round to a finite number form an interval around it, which reaches half way to each
neighbour and holds its ends exactly when the significand is even. Among the decimals in that
interval, the one with the fewest digits identifies the number; of several, the nearest one does.

The search goes from the coarsest decimal grid to finer ones. On a grid only the two neighbours of
the number can be the nearest, so each step tests two candidates by exact arithmetic on natural
numbers.
-/

namespace KeyedQuery.Binary64

/-- Which of two equally near decimals of the same length is taken. -/
inductive Tie where
  /-- The one with an even last digit. -/
  | even
  /-- The greater one. -/
  | up
deriving DecidableEq, Repr

/-- The reals that round to one positive number: the numerators of the lower end, of the number and
of the upper end over a common denominator, and whether the ends belong to it. -/
structure Interval where
  low : Nat
  mid : Nat
  high : Nat
  den : Nat
  closed : Bool

namespace Finite

/-- The interval of reals that round to the magnitude of `x`. The neighbour below a power of two is
half as far away as the neighbour above, except at the least exponent. -/
def interval (x : Finite) : Interval :=
  let scale := Nat.pow 2 x.exponent.toNat
  let below := if x.significand = Nat.pow 2 52 ∧ -1074 < x.exponent then 1 else 2
  { low := (4 * x.significand - below) * scale
    mid := 4 * x.significand * scale
    high := (4 * x.significand + 2) * scale
    den := 4 * Nat.pow 2 (-x.exponent).toNat
    closed := x.significand % 2 == 0 }

end Finite

namespace Interval

def contains (i : Interval) (d : Numeral.Decimal) : Bool :=
  let n := d.digits * Nat.pow 10 d.exponent.toNat * i.den
  let scale := Nat.pow 10 (-d.exponent).toNat
  if i.closed then i.low * scale ≤ n && n ≤ i.high * scale
  else i.low * scale < n && n < i.high * scale

/-- The multiple of `10 ^ g` in the interval that is nearest to its number, if there is one. -/
def nearestOnGrid? (tie : Tie) (i : Interval) (g : Int) : Option Numeral.Decimal :=
  let num := i.mid * Nat.pow 10 (-g).toNat
  let den := i.den * Nat.pow 10 g.toNat
  let below : Numeral.Decimal := ⟨num / den, g⟩
  let above : Numeral.Decimal := ⟨num / den + 1, g⟩
  let twice := 2 * (num % den)
  match i.contains below, i.contains above with
  | false, false => none
  | true, false => some below
  | false, true => some above
  | true, true =>
      if twice < den then some below
      else if den < twice then some above
      else
        match tie with
        | .up => some above
        | .even => some (if below.digits % 2 = 0 then below else above)

def digitCount (n : Nat) : Nat := (Nat.toDigits 10 n).length

/-- The least `k` such that the number of the interval is below `10 ^ k`. -/
def decimalPoint (i : Interval) : Int :=
  if i.den ≤ i.mid then digitCount (i.mid / i.den)
  else 1 - (digitCount ((i.den - 1) / i.mid) : Int)

end Interval

namespace Finite

def exactDecimal (x : Finite) : Numeral.Decimal :=
  ⟨x.significand * Nat.pow 2 x.exponent.toNat * Nat.pow 5 (-x.exponent).toNat,
    -((-x.exponent).toNat : Int)⟩

/-- The decimal with the fewest digits that rounds to the magnitude of `x`, for `x` not zero.
Seventeen digits always suffice; the exact value stands behind them. -/
def shortest (tie : Tie) (x : Finite) : Numeral.Decimal :=
  let i := x.interval
  let point := i.decimalPoint
  let found := (List.range 17).findSome? fun (n : Nat) => i.nearestOnGrid? tie (point - 1 - n)
  found.getD x.exactDecimal

end Finite

end KeyedQuery.Binary64
