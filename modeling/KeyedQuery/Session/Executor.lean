import KeyedQuery.Record

/-!
# Executors

An executor runs the text of a statement on a database and answers with rows or with the number of
rows affected. Its effects happen in a monad of its own, so that the real world, a simulation and a
state machine can stand behind it.
-/

namespace KeyedQuery

structure RowSet where
  columns : List String := []
  rows : List (List Value) := []

namespace RowSet

def scalar? (r : RowSet) : Option Value := r.rows.head?.bind List.head?

def recordOf (r : RowSet) (row : List Value) : Record := Record.ofList (r.columns.zip row)

def record? (r : RowSet) (index : Nat) : Option Record := r.rows[index]?.map r.recordOf

def records (r : RowSet) : List Record := r.rows.map r.recordOf

end RowSet

/-- What runs statements, with effects in `m`. A statement may come with a tag. -/
structure Executor (m : Type → Type) where
  /-- Runs a statement that returns rows. -/
  query (tag : Option String) (sql : String) : m (Result RowSet)
  /-- Runs a statement and counts the rows affected. -/
  execute (tag : Option String) (sql : String) : m (Result UInt64)
  /-- Writes a text as a literal; nothing leaves that to the dialect. -/
  quoteLiteral (text : String) : m (Option String)
  /-- The identifier that the last insertion generated, if it is known. -/
  lastInsertId : m (Option String)

end KeyedQuery
