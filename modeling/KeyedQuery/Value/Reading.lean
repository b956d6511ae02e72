import KeyedQuery.Binary64.Reading
import KeyedQuery.Text.Blank
import KeyedQuery.Value.Basic

/-!
# Scalar readings of a value

What a value says when an integer, a number or a truth value is wanted. Texts are trimmed and then
read as numerals; an integer numeral that fits 64 bits is read exactly, and only a text that is no
such numeral is read as a binary64 number.
-/

namespace KeyedQuery.Value

/-- The integer part of a finite number, moved to the nearest signed word. -/
def truncate? : Binary64 → Option Int64
  | .finite x => some (Binary64.clampInt64 x.truncate)
  | .infinite _ => none
  | .nan => none

/-- The integer reading: numbers lose their fraction, truth values are 1 and 0. -/
def asInt64? : Value → Option Int64
  | int n => some n
  | float x => truncate? x
  | bool b => some (if b then 1 else 0)
  | text s =>
      let cs := Text.trimChars s.toList
      match Numeral.readInt64? cs with
      | some n => some n
      | none => (Binary64.read? cs).bind truncate?
  | null => none
  | list _ => none

def asBinary64? : Value → Option Binary64
  | int n => some (Binary64.ofInt n.toInt)
  | float x => some x
  | bool b => some (Binary64.ofInt (if b then 1 else 0))
  | text s => Binary64.read? (Text.trimChars s.toList)
  | null => none
  | list _ => none

/-- The truth reading: numbers other than zero are true, and so are the texts `1`, `t` and `true` in
any case. -/
def asBool? : Value → Option Bool
  | bool b => some b
  | int n => some (n != 0)
  | float x => some (!x.isZero)
  | text s =>
      let word := Text.lower (Text.trim s)
      if word = "1" ∨ word = "t" ∨ word = "true" then some true
      else if word = "0" ∨ word = "f" ∨ word = "false" then some false
      else none
  | null => none
  | list _ => none

end KeyedQuery.Value
