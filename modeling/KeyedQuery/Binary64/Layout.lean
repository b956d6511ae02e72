import KeyedQuery.Binary64.Shortest

/-!
# Layout of decimal numbers

The digits of a number are chosen in `KeyedQuery.Binary64.Shortest`; here they are laid out. What a
layout decides is one record: between which exponents the point is placed among the digits, whether
a whole number shows a fraction, and how a tie is broken. Two layouts are in use. SQL text is always
positional and shows no empty fraction. JSON text is positional for exponents from -5 to 15, always
shows a fraction there, and writes other numbers with a signed exponent.
-/

namespace KeyedQuery.Binary64

structure Layout where
  /-- The exponents of the leading digit that are written positionally; all of them if absent. -/
  positional : Option (Int × Int)
  /-- Whether a positional whole number ends in `.0`. -/
  showsFraction : Bool
  /-- Which of two equally near decimals is taken. -/
  tie : Tie

namespace Layout

def sql : Layout := ⟨none, false, .up⟩

def json : Layout := ⟨some (-5, 15), true, .even⟩

/-- Writes digits positionally, the point standing `point` digits after their start. -/
def positionalText (showsFraction : Bool) (digits : List Char) (point : Int) : List Char :=
  if point ≤ 0 then
    '0' :: '.' :: List.replicate (-point).toNat '0' ++ digits
  else if point < digits.length then
    digits.take point.toNat ++ '.' :: digits.drop point.toNat
  else
    digits ++ List.replicate (point.toNat - digits.length) '0' ++
      if showsFraction then ['.', '0'] else []

def scientificText (digits : List Char) (exponent : Int) : List Char :=
  let fraction := digits.drop 1
  digits.take 1 ++ (if fraction = [] then [] else '.' :: fraction) ++
    'e' :: (if exponent < 0 then '-' else '+') :: Nat.toDigits 10 exponent.natAbs

/-- The digits of a positive decimal without zeros at the end, and the place of the point counted
from their start. -/
def significantDigits (d : Numeral.Decimal) : List Char × Int :=
  let digits := Nat.toDigits 10 d.digits
  ((digits.reverse.dropWhile (· == '0')).reverse, digits.length + d.exponent)

def finiteText (l : Layout) (x : Finite) : String :=
  let sign := if x.negative then ['-'] else []
  let magnitude :=
    if x.significand = 0 then '0' :: if l.showsFraction then ['.', '0'] else []
    else
      let (digits, point) := significantDigits (x.shortest l.tie)
      let inRange :=
        match l.positional with
        | none => true
        | some (least, greatest) => least ≤ point - 1 && point - 1 ≤ greatest
      if inRange then positionalText l.showsFraction digits point
      else scientificText digits (point - 1)
  String.ofList (sign ++ magnitude)

end Layout

def text : Binary64 → String
  | finite x => Layout.sql.finiteText x
  | infinite negative => if negative then "-inf" else "inf"
  | nan => "NaN"

end KeyedQuery.Binary64
