import KeyedQuery.Json.Basic
import KeyedQuery.Sql.Fragment

/-!
# Full-text search

A search of MySQL for a keyword in the index over some columns.
-/

namespace KeyedQuery

structure FullText where
  columns : List String
  keyword : String
deriving DecidableEq, Repr

namespace FullText

def readColumn : Json → Result String
  | .str name => .ok name
  | _ => fault .matchColumnItem

def ofJson (j : Json) : Result FullText :=
  match (j.get? "columns").bind Json.asArray?, (j.get? "keyword").bind Json.asString? with
  | none, _ => fault .matchColumns
  | some _, none => fault .matchKeyword
  | some columns, some keyword => do
      let columns ← columns.mapM readColumn
      return { columns, keyword }

def toSql (s : Settings) (f : FullText) : Result Fragment :=
  if !s.dialect.isMySql then s.dialect.lacks .fullText
  else if f.columns.isEmpty then fault .emptyMatch
  else
    .ok <| .code "MATCH (" :: Fragment.join ", " (f.columns.map s.column) ++
      [.code ") AGAINST (", .literal f.keyword, .code ")"]

end FullText

end KeyedQuery
