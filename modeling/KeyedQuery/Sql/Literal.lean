import KeyedQuery.Sql.Fragment
import KeyedQuery.Value.Basic

/-!
# Literals

The SQL form of a value. Numbers are written without quotes, truth values as 1 and 0, and a list as
the text of its JSON form. A text under a raw key that has the shape of a function call is let
through as it is; every other text becomes a string literal.
-/

namespace KeyedQuery.Literal

def isFunctionChar (c : Char) : Bool :=
  c.isUpper || c.isDigit || c == '_'

/-- Whether the characters after the name of a function are its arguments: an opening parenthesis,
no closing one, and a closing parenthesis at the end. -/
def isArguments : List Char → Bool
  | '(' :: rest => rest.dropWhile (· ≠ ')') == [')']
  | _ => false

/-- Whether a text has the shape of a function call, such as `NOW()`. -/
def isFunctionCall (text : String) : Bool :=
  isArguments (text.toList.dropWhile isFunctionChar)

/-- The piece of a text; `raw` says whether it belongs to a raw key. -/
def ofText (raw : Bool) (text : String) : Piece :=
  if raw && isFunctionCall text then .call text else .literal text

def ofValue (raw : Bool) : Value → Result Piece
  | .null => .ok (.code "NULL")
  | .bool b => .ok (.code (if b then "1" else "0"))
  | .int n => .ok (.code (Numeral.ofInt n.toInt))
  | .float x => (Value.floatSql x).map .code
  | .text s => .ok (ofText raw s)
  | .list items => .ok (.literal (Json.arr (Value.toJsonAll items)).render)

def ofScalar (value : Value) : Result Piece := ofValue false value

def ofScalars (values : List Value) : Result Fragment := do
  let pieces ← values.mapM ofScalar
  return Fragment.join "," (pieces.map fun piece => [piece])

@[simp] theorem ofText_false (text : String) : ofText false text = .literal text := rfl

@[simp] theorem ofScalar_text (s : String) : ofScalar (.text s) = .ok (.literal s) := rfl

end KeyedQuery.Literal
