import KeyedQuery.Key
import KeyedQuery.Query.Statement
import KeyedQuery.Write.Description

/-!
# Statements that write

The statements of insertions, row by row or all rows at once, of updates and substitutions, of
deletions, and the one that empties a table. Under the key of an assignment an operator of
arithmetic may stand: `hits[+]` adds the value to the column.
-/

namespace KeyedQuery

inductive Arithmetic where
  | add
  | subtract
  | multiply
  | divide
deriving DecidableEq, Repr

namespace Arithmetic

def sign : Arithmetic → String
  | add => "+"
  | subtract => "-"
  | multiply => "*"
  | divide => "/"

def ofSign? (sign : String) : Option Arithmetic :=
  [add, subtract, multiply, divide].find? fun op => op.sign == sign

def display (op : Arithmetic) : String := s!"[{op.sign}]"

theorem ofSign?_sign (op : Arithmetic) : ofSign? op.sign = some op := by
  cases op <;> decide

end Arithmetic

abbrev AssignmentKey := Key Arithmetic

namespace AssignmentKey

def parse (key : String) : Result AssignmentKey := Key.parse Arithmetic.ofSign? key

/-- The assignment of a value; arithmetic needs a number. -/
def toSql (s : Settings) (k : AssignmentKey) (v : Value) : Result Fragment :=
  let column := s.column k.column
  match k.operator, v.numericSql? with
  | none, _ => (Literal.ofValue k.raw v).map fun value => column ++ [.code " = ", value]
  | some op, some number =>
      number.map fun n => column ++ .code " = " :: column ++ [.code s!" {op.sign} ", .code n]
  | some op, none => .error (.unsupportedOperator k.column op.display v.tag.name)

end AssignmentKey

namespace Record

def literal (key : String) (v : Value) : Result Fragment :=
  (Literal.ofValue (Identifier.splitMarker key).1 v).map fun piece => [piece]

def columnsSql (s : Settings) (keys : List String) : Fragment :=
  (Fragment.join ", " (keys.map s.column)).parens

def valuesSql (r : Record) : Result Fragment :=
  (r.entries.mapM fun (key, v) => literal key v).map fun values =>
    (Fragment.join ", " values).parens

def valueAt (r : Record) (row : Nat) (key : String) : Result Fragment :=
  match r.get? key with
  | some v => literal key v
  | none => fault (.rowColumn row key)

/-- The values of a row in the order of the keys of the first row. It must have the same keys. -/
def tupleSql (keys : List String) (row : Nat) (r : Record) : Result Fragment :=
  if r.size = keys.length then
    (keys.mapM (r.valueAt row)).map fun values => (Fragment.join ", " values).parens
  else fault (.rowLength row r.size keys.length)

def assignmentsSql (s : Settings) (r : Record) : Result (List Fragment) :=
  r.entries.mapM fun (key, v) => (AssignmentKey.parse key).bind fun k => k.toSql s v

end Record

namespace Insertion

/-- The statement up to the columns. There has to be a row, and the dialect has to know the verb. -/
def headSql (s : Settings) (i : Insertion) : Result Fragment := do
  let table ← s.checkedTable i.table
  if i.rows.isEmpty then fault .noRows
  else if i.verb.isExtended && !s.dialect.isMySql then s.dialect.lacks (.insertVerb i.verb.text)
  else return .code s!"{i.verb.text} INTO " :: table

def rowSql (s : Settings) (head : Fragment) (row : Record) : Result Fragment :=
  if row.isEmpty then fault .emptyRow
  else do
    let values ← row.valuesSql
    return head ++ .code " " :: Record.columnsSql s row.keys ++ .code " VALUES " :: values

def eachSql (s : Settings) (i : Insertion) : Result (List Fragment) := do
  let head ← i.headSql s
  i.rows.mapM (rowSql s head)

def tuplesSql (keys : List String) : Nat → List Record → Result (List Fragment)
  | _, [] => .ok []
  | row, r :: rest => do
      let tuple ← r.tupleSql keys row
      let tuples ← tuplesSql keys (row + 1) rest
      return tuple :: tuples

/-- One statement for all rows. The columns are those of the first row, and every row must have
them. -/
def togetherSql (s : Settings) (i : Insertion) : Result Fragment := do
  let head ← i.headSql s
  let keys := (i.rows.head?.map Record.keys).getD []
  if keys.isEmpty then fault .emptyRow
  else
    let tuples ← tuplesSql keys 0 i.rows
    return head ++ .code " " :: Record.columnsSql s keys ++ .code " VALUES " ::
      Fragment.join ", " tuples

end Insertion

def Write.updateSql (s : Settings) (table : Fragment) (assignments : List Fragment)
    (clauses : Clauses) : Result Fragment :=
  (clauses.toSql s).map fun clauses =>
    .code "UPDATE " :: table ++ .code " SET " :: Fragment.join ", " assignments ++ clauses

namespace Update

def toSql (s : Settings) (u : Update) : Result Fragment := do
  let table ← s.checkedTable u.table
  if u.assignments.isEmpty then fault .nothingToSet
  else
    let assignments ← u.assignments.assignmentsSql s
    Write.updateSql s table assignments u.clauses

end Update

namespace Substitution

def assignment (s : Settings) (r : Substitution) : Fragment :=
  let column := s.column r.column
  column ++ .code " = REPLACE(" :: column ++
    [.code ", ", .literal r.search, .code ", ", .literal r.replacement, .code ")"]

def toSql (s : Settings) (table : String) (substitutions : List Substitution)
    (clauses : Clauses) : Result Fragment := do
  let table ← s.checkedTable table
  if substitutions.isEmpty then fault .noSubstitutions
  else Write.updateSql s table (substitutions.map (assignment s)) clauses

end Substitution

namespace Deletion

def toSql (s : Settings) (d : Deletion) : Result Fragment := do
  let table ← s.checkedTable d.table
  let clauses ← d.clauses.toSql s
  return .code "DELETE FROM " :: table ++ clauses

end Deletion

/-- The statement that empties a table; SQLite has none. -/
def Write.truncateSql (s : Settings) (table : String) : Result Fragment :=
  if s.dialect = .sqlite then s.dialect.lacks .truncate
  else (s.checkedTable table).map fun name => .code "TRUNCATE TABLE " :: name

end KeyedQuery
