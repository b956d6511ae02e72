import KeyedQuery.Binary64.Layout
import KeyedQuery.Error
import KeyedQuery.Json.Printer

/-!
# Values

The values that conditions compare with and rows hold. The tag of a value, its kind without its
content, decides which operators apply to it. A value has a JSON form, in which a number that is not
finite is `null`, and any JSON value but an object can be read as a value.
-/

namespace KeyedQuery

inductive Value where
  | null
  | bool (b : Bool)
  | int (n : Int64)
  | float (x : Binary64)
  | text (s : String)
  | list (items : List Value)

namespace Value

inductive Tag where
  | null
  | bool
  | int
  | float
  | text
  | list
deriving DecidableEq, Repr

def Tag.name : Tag → String
  | null => "null"
  | bool => "bool"
  | int => "int"
  | float => "float"
  | text => "text"
  | list => "list"

def tag : Value → Tag
  | null => .null
  | bool _ => .bool
  | int _ => .int
  | float _ => .float
  | text _ => .text
  | list _ => .list

def isNumeric : Value → Bool
  | int _ => true
  | float _ => true
  | _ => false

def isList : Value → Bool
  | list _ => true
  | _ => false

def nonFinite (x : Binary64) : Error :=
  .invalidValue s!"non-finite float {x.text} has no SQL literal"

def floatSql (x : Binary64) : Result String :=
  if x.isFinite then .ok x.text else .error (nonFinite x)

/-- The SQL text of a number; nothing for a value that is no number. -/
def numericSql? : Value → Option (Result String)
  | int n => some (.ok (Numeral.ofInt n.toInt))
  | float x => some (floatSql x)
  | _ => none

mutual

def toJson : Value → Json
  | null => .null
  | bool b => .bool b
  | int n => .num (.int n.toInt ⟨n.le_toInt, Int.lt_of_lt_of_le n.toInt_lt (by decide)⟩)
  | float (.finite x) => .num (.real x)
  | float (.infinite _) => .null
  | float .nan => .null
  | text s => .str s
  | list items => .arr (toJsonAll items)

def toJsonAll : List Value → List Json
  | [] => []
  | v :: rest => v.toJson :: toJsonAll rest

end

/-- The value of a JSON number: a signed word if it is an integer that fits one, and otherwise a
binary64 number. -/
def ofNumber : Json.Number → Value
  | .int n _ =>
      match Numeral.int64? n with
      | some i => int i
      | none => float (Binary64.ofInt n)
  | .real x => float (.finite x)

mutual

/-- Reads a JSON value, which may hold no object. -/
def ofJson : Json → Result Value
  | .null => .ok null
  | .bool b => .ok (bool b)
  | .num n => .ok (ofNumber n)
  | .str s => .ok (text s)
  | .arr items => do
      let values ← ofJsonAll items
      return list values
  | .obj _ => fault .objectAsValue

def ofJsonAll : List Json → Result (List Value)
  | [] => .ok []
  | j :: rest => do
      let value ← ofJson j
      let values ← ofJsonAll rest
      return value :: values

end

@[simp] theorem toJsonAll_nil : toJsonAll [] = [] := rfl

@[simp] theorem toJsonAll_cons (v : Value) (rest : List Value) :
    toJsonAll (v :: rest) = v.toJson :: toJsonAll rest := rfl

@[simp] theorem ofJsonAll_nil : ofJsonAll [] = .ok [] := rfl

theorem floatSql_eq_ok_iff (x : Binary64) (s : String) :
    floatSql x = .ok s ↔ x.isFinite = true ∧ s = x.text := by
  unfold floatSql
  split
  · next h => exact ⟨fun hs => ⟨h, (Except.ok.inj hs).symm⟩, fun hs => by rw [hs.2]⟩
  · next h => exact ⟨fun hs => by simp at hs, fun hs => absurd hs.1 h⟩

end Value

end KeyedQuery
