import KeyedQuery.Binary64.Rounding
import KeyedQuery.Text.Letters

/-!
# Reading numbers from text

A number is an optional sign followed by `inf`, `infinity` or `nan` in any case of letters, or by a
decimal numeral with at least one digit before or after its point. No blanks are allowed around it.
-/

namespace KeyedQuery.Binary64

def readMagnitude? (cs : List Char) : Option Numeral.Decimal :=
  (Numeral.scan cs).bind fun parts =>
    if parts.whole ++ parts.fraction.getD [] = [] then none else some parts.value

/-- Reads a number after its sign, a numeral being rounded by `round`. -/
def readUnsigned? (round : Bool → Numeral.Decimal → Binary64) (negative : Bool)
    (cs : List Char) : Option Binary64 :=
  if Text.sameLetterChars cs "inf".toList || Text.sameLetterChars cs "infinity".toList then
    some (.infinite negative)
  else if Text.sameLetterChars cs "nan".toList then
    some .nan
  else
    (readMagnitude? cs).map (round negative)

def readWith? (round : Bool → Numeral.Decimal → Binary64) : List Char → Option Binary64
  | '-' :: cs => readUnsigned? round true cs
  | '+' :: cs => readUnsigned? round false cs
  | cs => readUnsigned? round false cs

def read? (cs : List Char) : Option Binary64 :=
  readWith? ofDecimal cs

def readSingle? (cs : List Char) : Option Binary64 :=
  readWith? ofDecimalSingle cs

end KeyedQuery.Binary64
