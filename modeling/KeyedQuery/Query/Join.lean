import KeyedQuery.Identifier
import KeyedQuery.Json.Basic
import KeyedQuery.Sql.Fragment

/-!
# Joins

A joined table, and how its rows belong to the rows of the query: by columns that both sides share,
or by pairs of columns. The left column of a pair belongs to the main table unless it names another
one. A join is read from a key such as `[>]roles(r)`, in which the sign in brackets is the kind.
-/

namespace KeyedQuery

inductive JoinKind where
  | left
  | right
  | full
  | inner
deriving DecidableEq, Repr

namespace JoinKind

def keyword : JoinKind → String
  | left => "LEFT JOIN"
  | right => "RIGHT JOIN"
  | full => "FULL JOIN"
  | inner => "INNER JOIN"

def sign : JoinKind → String
  | left => ">"
  | right => "<"
  | full => "<>"
  | inner => "><"

def ofSign? (sign : String) : Option JoinKind :=
  [left, right, full, inner].find? fun k => k.sign == sign

theorem ofSign?_sign (k : JoinKind) : ofSign? k.sign = some k := by
  cases k <;> decide

end JoinKind

/-- How the rows of a joined table belong to the rows of the query. -/
inductive Relation where
  /-- By columns that both sides have. -/
  | shared (columns : List String)
  /-- By a column of the query and one of the joined table, in pairs. -/
  | pairs (columns : List (String × String))
deriving DecidableEq, Repr

namespace Relation

def readColumn : Json → Result String
  | .str name => .ok name
  | _ => fault .joinColumn

def ofJson : Json → Result Relation
  | .str name => .ok (shared [name])
  | .arr items => (items.mapM readColumn).map shared
  | .obj fields => do
      let columns ← fields.mapM fun (left, j) => do
        let right ← readColumn j
        return (left, right)
      return pairs columns
  | _ => fault .relationShape

end Relation

/-- A joined table, with the label by which the query refers to it if that is not its name. -/
structure Join where
  kind : JoinKind
  table : String
  label : Option String
  relation : Relation
deriving DecidableEq, Repr

namespace Join

def ofTable (kind : JoinKind) (table : String) (relation : Relation) : Join :=
  match Label.split? table with
  | some (name, label) => { kind, table := name, label := some label, relation }
  | none => { kind, table := Text.trim table, label := none, relation }

/-- Splits a key into the sign in brackets and the table after it. -/
def splitKey? (key : String) : Option (String × String) :=
  match Text.trimChars key.toList with
  | '[' :: rest =>
      match rest.dropWhile (· ≠ ']') with
      | [] => none
      | _ :: table => some (String.ofList (rest.takeWhile (· ≠ ']')), String.ofList table)
  | _ => none

def ofKey? (key : String) (relation : Relation) : Option Join := do
  let (sign, table) ← splitKey? key
  let kind ← JoinKind.ofSign? sign
  if Text.trim table = "" then none else some (ofTable kind table relation)

def ofKey (key : String) (relation : Relation) : Result Join :=
  match ofKey? key relation with
  | some join => .ok join
  | none => fault (.joinKey key)

def ofField (key : String) (j : Json) : Result Join := do
  let relation ← Relation.ofJson j
  ofKey key relation

/-- The name by which a query refers to the table. -/
def reference (j : Join) : String := j.label.getD j.table

end Join

end KeyedQuery
