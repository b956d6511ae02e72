import KeyedQuery.Query.Basic

/-!
# Statements that read

The statements of a query: all its rows, one row, whether there is a row, and an aggregate.
-/

namespace KeyedQuery

structure MainTable where
  /-- What refers to the table. -/
  reference : Fragment
  /-- What introduces it. -/
  expression : Fragment

def MainTable.ofName (s : Settings) (table : String) : Result MainTable :=
  match Label.split? table with
  | some (name, label) => do
      let name ← s.checkedTable name
      let label := s.table label
      return ⟨label, name.labelled label⟩
  | none => do
      let name ← s.checkedTable table
      return ⟨name, name⟩

namespace Join

/-- The left side of a pair: a column of the main table, unless a table stands before a point. -/
def leftSide (s : Settings) (main : Fragment) (left : String) : Fragment :=
  if left.toList.contains '.' && left.toList.head? ≠ some '.' then s.column left
  else main ++ [.code ".", .name left]

def relationSql (s : Settings) (main : Fragment) (j : Join) : Result Fragment :=
  match j.relation with
  | .shared [] => fault (.emptyRelation j.table)
  | .pairs [] => fault (.emptyRelation j.table)
  | .shared columns =>
      let names := columns.map fun column => [Piece.name column]
      .ok (.code "USING (" :: Fragment.join ", " names ++ [.code ")"])
  | .pairs columns =>
      let joined := s.table j.reference
      let equations := columns.map fun (left, right) =>
        leftSide s main left ++ .code " = " :: joined ++ [.code ".", .name right]
      .ok (.code "ON " :: Fragment.join " AND " equations)

def toSql (s : Settings) (main : Fragment) (j : Join) : Result Fragment := do
  let table ← s.checkedTable j.table
  let target :=
    match j.label with
    | some label => table.labelled (s.table label)
    | none => table
  let relation ← j.relationSql s main
  return .code s!" {j.kind.keyword} " :: target ++ .code " " :: relation

end Join

namespace Query

def projectionSql (s : Settings) (q : Query) : Result Fragment :=
  match q.reduction with
  | some .existence => .ok [.code "1"]
  | some (.aggregate a) => (q.projection.toSql s).map a.apply
  | none => q.projection.toSql s

def selectSql (s : Settings) (q : Query) : Result Fragment := do
  let main ← MainTable.ofName s q.table
  let projection ← q.projectionSql s
  let joins ← q.joins.mapM (Join.toSql s main.reference)
  let clauses ← q.clauses.toSql s
  return .code "SELECT " :: projection ++ .code " FROM " :: main.expression ++ joins.flatten ++
    clauses

/-- The statement for one row of a query; a limit of the query is replaced. SQL Server needs an
order for that, and is told that there is none. -/
def getSql (s : Settings) (q : Query) : Result Fragment :=
  if s.dialect = .mssql ∧ q.clauses.order.isNone then do
    let limit ← (Limit.count 1).toSql s.dialect true
    let statement ← selectSql s { q with clauses := { q.clauses with limit := none } }
    return statement ++ [.code " ORDER BY (SELECT NULL)", .code limit]
  else selectSql s (q.withLimit (.count 1))

/-- The statement for whether a query has a row; its projection does not matter. -/
def hasSql (s : Settings) (q : Query) : Result Fragment := do
  let statement ← selectSql s { q with projection := .all, reduction := some .existence }
  return .code "SELECT EXISTS(" :: statement ++ [.code ")"]

def aggregateSql (s : Settings) (a : Aggregate) (q : Query) : Result Fragment :=
  selectSql s (q.withReduction (.aggregate a))

def headersSql (s : Settings) (table : String) : Result Fragment :=
  (s.checkedTable table).map fun name => .code "SELECT * FROM " :: name

end Query

end KeyedQuery
