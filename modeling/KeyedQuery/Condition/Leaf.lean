import KeyedQuery.Condition.Operator
import KeyedQuery.Condition.Pattern
import KeyedQuery.Key
import KeyedQuery.Sql.Literal

/-!
# Conditions on one column

A column and a value, with an operator or without one. Without an operator the kind of the value
decides: `null` asks for the absent value, a list for one of its items, anything else for equality.
The operator `differs` negates that. The other operators apply to some kinds of values only, and
every other pair of an operator and a value is refused.
-/

namespace KeyedQuery

abbrev LeafKey := Key Operator

namespace LeafKey

def parse (key : String) : Result LeafKey := Key.parse Operator.ofSuffix? key

def unsupported (k : LeafKey) (v : Value) : Error :=
  .unsupportedOperator k.column ((k.operator.map Operator.display).getD "=") v.tag.name

def nullTest (column : Fragment) (negated : Bool) : Fragment :=
  column ++ [.code (if negated then " IS NOT NULL" else " IS NULL")]

def equality (column : Fragment) (negated : Bool) (value : Piece) : Fragment :=
  column ++ [.code (if negated then " != " else " = "), value]

/-- Being one of the items, or none of them. No column has a value in the empty list, and none is
compared with it. -/
def membership (column : Fragment) (negated : Bool) (items : List Value) : Result Fragment :=
  if items.isEmpty then .ok [.code (if negated then "1=1" else "1=0")]
  else do
    let values ← Literal.ofScalars items
    return column ++ .code (if negated then " NOT IN (" else " IN (") :: values ++ [.code ")"]

/-- What a key asks for without an operator, or its negation: the absent value, one of the items of
a flat list, or equality. -/
def inferred (column : Fragment) (k : LeafKey) (negated : Bool) : Value → Result Fragment
  | .null => .ok (nullTest column negated)
  | .list items =>
      if items.any Value.isList then .error (k.unsupported (.list items))
      else membership column negated items
  | v => (Literal.ofValue k.raw v).map (equality column negated)

/-- Whether a value can bound a range: a number or a text. -/
def isBound : Value → Bool
  | .int _ => true
  | .float _ => true
  | .text _ => true
  | _ => false

def range (column : Fragment) (negated : Bool) (low high : Value) : Result Fragment := do
  let low ← Literal.ofScalar low
  let high ← Literal.ofScalar high
  return Fragment.parens <|
    column ++ [.code (if negated then " NOT BETWEEN " else " BETWEEN "), low, .code " AND ", high]

/-- The term of a search that a value stands for: a text, or the text of a number. -/
def term? : Value → Option (Result String)
  | .text s => some (.ok s)
  | v => v.numericSql?

def searched : Value → List Value
  | .list items => items
  | v => [v]

/-- The terms of a search, up to the first value that is none. -/
def terms (k : LeafKey) (v : Value) : Result (List String) :=
  (searched v).mapM fun item => (term? item).getD (.error (k.unsupported v))

def matchOf (column : Fragment) (raw negated : Bool) (term : String) : Fragment :=
  column ++ [.code (if negated then " NOT LIKE " else " LIKE "),
    Literal.ofText raw (Pattern.ofTerm term)]

def anyOf : List Fragment → Fragment
  | [only] => only
  | alternatives => Fragment.parens (Fragment.join " OR " alternatives)

def comparand? (raw : Bool) : Value → Option (Result Piece)
  | .text s => some (.ok (Literal.ofText raw s))
  | v => v.numericSql?.map fun number => number.map .code

def compared (column : Fragment) (c : Comparison) (value : Piece) : Fragment :=
  column ++ [.code s!" {c.sign} ", value]

/-- The condition that a key and a value stand for. -/
def toSql (s : Settings) (k : LeafKey) (v : Value) : Result Fragment :=
  let column := s.column k.column
  match k.operator with
  | none => inferred column k false v
  | some .differs => inferred column k true v
  | some (.between negated) =>
      match v with
      | .list [low, high] =>
          if isBound low && isBound high then range column negated low high
          else .error (k.unsupported v)
      | _ => .error (k.unsupported v)
  | some (.like negated) =>
      if (searched v).isEmpty then .error (k.unsupported v)
      else (terms k v).map fun ts => anyOf (ts.map (matchOf column k.raw negated))
  | some (.comparison c) =>
      match comparand? k.raw v with
      | some value => value.map (compared column c)
      | none => .error (k.unsupported v)

end LeafKey

end KeyedQuery
