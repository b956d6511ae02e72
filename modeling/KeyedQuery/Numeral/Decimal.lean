import KeyedQuery.Numeral.Integer

/-!
# Decimal numerals with a point and an exponent

A numeral such as `-12.50e3` is scanned into its parts first, and each format that reads numerals
says which parts it demands. The number of a scanned numeral is exact: a natural number times a
power of ten.
-/

namespace KeyedQuery.Numeral

/-- The exact decimal number `digits * 10 ^ exponent`. -/
structure Decimal where
  digits : Nat
  exponent : Int
deriving DecidableEq, Repr

/-- The parts of an unsigned numeral: the digits before the point, the digits after it if there is
a point, and the number after `e` if there is one. -/
structure Parts where
  whole : List Char
  fraction : Option (List Char)
  exponent : Option Int
deriving DecidableEq, Repr

def scanExponent : List Char → Option (Option Int)
  | [] => some none
  | c :: cs => if c = 'e' ∨ c = 'E' then (signed? cs).map some else none

def scan (cs : List Char) : Option Parts :=
  let whole := cs.takeWhile Char.isDigit
  match cs.dropWhile Char.isDigit with
  | '.' :: rest =>
      (scanExponent (rest.dropWhile Char.isDigit)).map fun e =>
        ⟨whole, some (rest.takeWhile Char.isDigit), e⟩
  | rest => (scanExponent rest).map fun e => ⟨whole, none, e⟩

def Parts.value (p : Parts) : Decimal where
  digits := Nat.ofDigitChars 10 (p.whole ++ p.fraction.getD []) 0
  exponent := p.exponent.getD 0 - (p.fraction.getD []).length

end KeyedQuery.Numeral
