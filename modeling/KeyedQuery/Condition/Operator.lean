/-!
# Operators of conditions

Conjunctors join conditions; an operator, written in brackets after a column, says how the column
compares with its value. The suffixes of the operators are the words of the grammar of keys.
-/

namespace KeyedQuery

inductive Conjunctor where
  | and
  | or
deriving DecidableEq, Repr

namespace Conjunctor

def keyword : Conjunctor → String
  | and => "AND"
  | or => "OR"

def separator : Conjunctor → String
  | and => " AND "
  | or => " OR "

end Conjunctor

inductive Comparison where
  | greater
  | greaterOrEqual
  | less
  | lessOrEqual
deriving DecidableEq, Repr

def Comparison.sign : Comparison → String
  | greater => ">"
  | greaterOrEqual => ">="
  | less => "<"
  | lessOrEqual => "<="

inductive Operator where
  /-- Comparison with a number or a text. -/
  | comparison (c : Comparison)
  /-- The negation of what a key without operator means. -/
  | differs
  /-- Between two bounds, or not. -/
  | between (negated : Bool)
  /-- Matching a pattern, or not. -/
  | like (negated : Bool)
deriving DecidableEq, Repr

namespace Operator

def all : List Operator :=
  [comparison .greater, comparison .greaterOrEqual, comparison .less, comparison .lessOrEqual,
    differs, between false, between true, like false, like true]

def suffix : Operator → String
  | comparison c => c.sign
  | differs => "!"
  | between false => "<>"
  | between true => "><"
  | like false => "~"
  | like true => "!~"

def ofSuffix? (suffix : String) : Option Operator :=
  all.find? fun op => op.suffix == suffix

def display (op : Operator) : String := s!"[{op.suffix}]"

theorem mem_all (op : Operator) : op ∈ all := by
  rcases op with (_ | _ | _ | _) | _ | (_ | _) | (_ | _) <;> decide

theorem ofSuffix?_suffix (op : Operator) : ofSuffix? op.suffix = some op := by
  rcases op with (_ | _ | _ | _) | _ | (_ | _) | (_ | _) <;> decide

theorem ofSuffix?_eq_some_iff (suffix : String) (op : Operator) :
    ofSuffix? suffix = some op ↔ suffix = op.suffix := by
  constructor
  · intro h
    have := List.find?_some h
    simpa using (eq_of_beq this).symm
  · rintro rfl
    exact ofSuffix?_suffix op

end Operator

end KeyedQuery
