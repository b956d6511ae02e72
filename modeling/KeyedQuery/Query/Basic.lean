import KeyedQuery.Clause.Clauses
import KeyedQuery.Query.Column
import KeyedQuery.Query.Join

/-!
# Queries

A query selects columns of a table and of the tables joined to it, under clauses. The projection may
be reduced as a whole: to an aggregate of it, or to the mere existence of a row.

In JSON a query is the name of a table or an object. The table stands under `TABLE`, `FROM` or
`SELECT`, the first of them that is there; when one of the first two names the table, `SELECT` may
list the columns.
-/

namespace KeyedQuery

/-- What a whole projection is reduced to. -/
inductive Reduction where
  /-- An aggregate of the projection. -/
  | aggregate (a : Aggregate)
  /-- Whether there is a row. -/
  | existence
deriving DecidableEq, Repr

def Reduction.ofJson : Json → Result Reduction
  | .str text =>
      if Text.sameLetters text "exists" then .ok existence
      else
        match Aggregate.read? text with
        | some a => .ok (aggregate a)
        | none => fault (.unknownReduction text)
  | .bool true => .ok existence
  | .num n =>
      if n.toUInt64? = some 1 then .ok existence else fault (.reductionShape (Json.num n).render)
  | j => fault (.reductionShape j.render)

structure Query where
  /-- The main table, perhaps with a label. -/
  table : String
  projection : Projection := .all
  joins : List Join := []
  clauses : Clauses := {}
  reduction : Option Reduction := none

namespace Query

def ofTable (table : String) : Query := { table }

def withColumns (q : Query) (columns : List Column) : Query :=
  { q with projection := .columns columns }

def withColumn (q : Query) (c : Column) : Query := { q with projection := q.projection.add c }

def withJoin (q : Query) (j : Join) : Query := { q with joins := q.joins ++ [j] }

def withClauses (q : Query) (clauses : Clauses) : Query := { q with clauses }

def withConditions (q : Query) (conditions : Conditions) : Query :=
  { q with clauses := { q.clauses with conditions } }

def groupBy (q : Query) (group : List String) : Query :=
  { q with clauses := { q.clauses with group } }

def withHaving (q : Query) (having : Conditions) : Query :=
  { q with clauses := { q.clauses with having := some having } }

def orderBy (q : Query) (order : Order) : Query :=
  { q with clauses := { q.clauses with order := some order } }

def withLimit (q : Query) (limit : Limit) : Query :=
  { q with clauses := { q.clauses with limit := some limit } }

def withFullText (q : Query) (fullText : FullText) : Query :=
  { q with clauses := { q.clauses with fullText := some fullText } }

def withReduction (q : Query) (r : Reduction) : Query := { q with reduction := some r }

def jsonKeys : List String := ["TABLE", "FROM", "SELECT", "COLUMNS", "JOIN", "WHERE", "FUN"]

def firstOf? (fields : Entries Json) (keys : List String) : Option Json :=
  keys.findSome? (Entries.get? fields)

def columnsField? (fields : Entries Json) : Option Json :=
  match Entries.get? fields "COLUMNS" with
  | some j => some j
  | none =>
      if Entries.contains fields "TABLE" || Entries.contains fields "FROM" then
        Entries.get? fields "SELECT"
      else none

def readJoins : Json → Result (List Join)
  | .obj fields => fields.mapM fun (key, j) => Join.ofField key j
  | _ => fault .joinShape

def readPart {α : Type} (j : Option Json) (absent : α) (read : Json → Result α) : Result α :=
  match j with
  | some j => read j
  | none => .ok absent

def ofFields (fields : Entries Json) : Result Query := do
  match (Entries.keys fields).find? fun k => k ∉ jsonKeys ∧ k ∉ Clauses.jsonKeys with
  | some key => fault (.unknownQueryKey key)
  | none => pure ()
  let table ←
    match (firstOf? fields ["TABLE", "FROM", "SELECT"]).bind Json.asString? with
    | some table => .ok table
    | none => fault .queryTable
  let projection ← readPart (columnsField? fields) .all Projection.ofJson
  let joins ← readPart (Entries.get? fields "JOIN") [] readJoins
  let clauses ← Clauses.ofFields fields
  let reduction ← readPart (Entries.get? fields "FUN") none fun j => (Reduction.ofJson j).map some
  return { table, projection, joins, clauses, reduction }

def ofJson : Json → Result Query
  | .str table => .ok (ofTable table)
  | .obj fields => ofFields fields
  | _ => fault .queryShape

end Query

end KeyedQuery
