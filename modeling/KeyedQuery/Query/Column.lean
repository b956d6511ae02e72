import KeyedQuery.Identifier
import KeyedQuery.Json.Basic
import KeyedQuery.Sql.Fragment

/-!
# Projections

The columns that a query selects: all of them, or a list in which every column may have a label and
stand inside an aggregate. A column is read from `name` or `name(label)`.
-/

namespace KeyedQuery

inductive Aggregate where
  | count
  | max
  | min
  | sum
  | avg
  | round
deriving DecidableEq, Repr

namespace Aggregate

def all : List Aggregate := [count, max, min, sum, avg, round]

def name : Aggregate → String
  | count => "COUNT"
  | max => "MAX"
  | min => "MIN"
  | sum => "SUM"
  | avg => "AVG"
  | round => "ROUND"

def read? (name : String) : Option Aggregate :=
  all.find? fun a => Text.sameLetters a.name name

def apply (a : Aggregate) (f : Fragment) : Fragment :=
  .code s!"{a.name}(" :: f ++ [.code ")"]

end Aggregate

structure Column where
  name : String
  label : Option String := none
  aggregate : Option Aggregate := none
deriving DecidableEq, Repr

namespace Column

def parse (text : String) : Column :=
  match Label.split? text with
  | some (name, label) => { name, label }
  | none => { name := Text.trim text }

def ofField (name : String) (j : Json) : Result Column :=
  match Aggregate.read? name, j with
  | none, _ => fault (.unknownAggregate name)
  | some a, .str text => .ok { parse text with aggregate := some a }
  | some a, _ => fault (.aggregateColumn a.name)

def expression (s : Settings) (c : Column) : Fragment :=
  match c.aggregate with
  | some a => a.apply (s.column c.name)
  | none => s.column c.name

def toSql (s : Settings) (c : Column) : Fragment :=
  match c.label with
  | some label => (c.expression s).labelled [.name label]
  | none => c.expression s

end Column

inductive Projection where
  | all
  | columns (list : List Column)
deriving DecidableEq, Repr

namespace Projection

/-- The projection with one column more; the first one takes the place of all columns. -/
def add (p : Projection) (c : Column) : Projection :=
  match p with
  | all => columns [c]
  | columns list => columns (list ++ [c])

def ofItem : Json → Result (List Column)
  | .str text => .ok [Column.parse text]
  | .obj fields => fields.mapM fun (name, j) => Column.ofField name j
  | _ => fault .columnEntry

/-- Reads a projection: a star or a column, an array, or an object from aggregates to columns. -/
def ofJson : Json → Result Projection
  | .str text => .ok (if Text.trim text = "*" then all else columns [Column.parse text])
  | .arr items => (items.mapM ofItem).map fun lists => columns lists.flatten
  | .obj fields => (fields.mapM fun (name, j) => Column.ofField name j).map columns
  | _ => fault .columnsShape

def toSql (s : Settings) : Projection → Result Fragment
  | all => .ok [.code "*"]
  | columns [] => fault .emptyColumnList
  | columns (c :: list) => .ok (Fragment.join "," ((c :: list).map (Column.toSql s)))

end Projection

end KeyedQuery
