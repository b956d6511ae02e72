import KeyedQuery.Clause.Clauses
import KeyedQuery.Record
import KeyedQuery.Write.Verb

/-!
# Descriptions of writes

Insertions, updates, substitutions and deletions. In JSON each but the substitution is an object.
Its table stands under `TABLE`, `FROM` or the keyword of the statement, the first of them that is
there; rows and assignments stand under `VALUES` or `SET`, and clauses beside them.
-/

namespace KeyedQuery

namespace Write

/-- The keyword of a kind of write, and the word for it in messages. -/
structure Kind where
  keyword : String
  word : String
deriving DecidableEq, Repr

def Kind.insert : Kind := ⟨"INSERT", "insert"⟩

def Kind.update : Kind := ⟨"UPDATE", "update"⟩

def Kind.delete : Kind := ⟨"DELETE", "delete"⟩

def readFields (kind : Kind) (known : List String) : Json → Result (Entries Json)
  | .obj fields =>
      match (Entries.keys fields).find? fun k => k ∉ known with
      | some key => fault (.unknownWriteKey key)
      | none => .ok fields
  | _ => fault (.writeShape kind.word)

def readTable (kind : Kind) (fields : Entries Json) : Result String :=
  match (["TABLE", "FROM", kind.keyword].findSome? (Entries.get? fields)).bind Json.asString? with
  | some table => .ok table
  | none => fault (.writeTable kind.word)

end Write

structure Insertion where
  table : String
  rows : List Record := []
  verb : Verb := .insert

namespace Insertion

def withRows (i : Insertion) (rows : List Record) : Insertion := { i with rows := i.rows ++ rows }

def withVerb (i : Insertion) (verb : Verb) : Insertion := { i with verb }

def jsonKeys : List String := ["TABLE", "FROM", "INSERT", "VALUES", "SET"]

def readRows : Option Json → Result (List Record)
  | some (.arr items) => items.mapM Record.ofJson
  | some (.obj fields) => (Record.ofJson (.obj fields)).map fun row => [row]
  | some _ => fault .rowsShape
  | none => fault .noRowsGiven

/-- Reads an insertion; its verb is the plain one. -/
def ofJson (j : Json) : Result Insertion := do
  let fields ← Write.readFields .insert jsonKeys j
  let rows ← readRows (["VALUES", "SET"].findSome? (Entries.get? fields))
  let table ← Write.readTable .insert fields
  return { table, rows }

end Insertion

structure Update where
  table : String
  assignments : Record
  clauses : Clauses := {}

namespace Update

def withConditions (u : Update) (conditions : Conditions) : Update :=
  { u with clauses := { u.clauses with conditions } }

def withClauses (u : Update) (clauses : Clauses) : Update := { u with clauses }

def jsonKeys : List String :=
  ["TABLE", "FROM", "UPDATE", "SET", "VALUES", "WHERE"] ++ Clauses.jsonKeys

def ofJson (j : Json) : Result Update := do
  let fields ← Write.readFields .update jsonKeys j
  match ["SET", "VALUES"].findSome? (Entries.get? fields) with
  | none => fault .noAssignments
  | some assignments =>
      let table ← Write.readTable .update fields
      let assignments ← Record.ofJson assignments
      let clauses ← Clauses.ofFields fields
      return { table, assignments, clauses }

end Update

structure Substitution where
  column : String
  search : String
  replacement : String
deriving DecidableEq, Repr

structure Deletion where
  table : String
  clauses : Clauses := {}

namespace Deletion

def withConditions (d : Deletion) (conditions : Conditions) : Deletion :=
  { d with clauses := { d.clauses with conditions } }

def withClauses (d : Deletion) (clauses : Clauses) : Deletion := { d with clauses }

def jsonKeys : List String := ["TABLE", "FROM", "DELETE", "WHERE"] ++ Clauses.jsonKeys

def ofJson (j : Json) : Result Deletion := do
  let fields ← Write.readFields .delete jsonKeys j
  let table ← Write.readTable .delete fields
  let clauses ← Clauses.ofFields fields
  return { table, clauses }

end Deletion

end KeyedQuery
