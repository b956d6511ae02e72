import KeyedQuery.Clause.FullText
import KeyedQuery.Clause.Limit
import KeyedQuery.Clause.Order
import KeyedQuery.Condition.Predicate

/-!
# Clauses

What follows the tables of a statement: conditions and a full-text search, grouping and conditions
on groups, an order, and a limit. In JSON the clauses stand under keys of their own among the
conditions, or beside the object that holds the conditions; where both are given, the ones among the
conditions count.
-/

namespace KeyedQuery

structure Clauses where
  conditions : Conditions := []
  fullText : Option FullText := none
  group : List String := []
  having : Option Conditions := none
  order : Option Order := none
  limit : Option Limit := none

namespace Clauses

def jsonKeys : List String := ["GROUP", "ORDER", "HAVING", "LIMIT", "MATCH"]

def readGroupItem : Json → Result String
  | .str name => .ok name
  | _ => fault .groupItem

def readGroup : Json → Result (List String)
  | .str name => .ok [name]
  | .arr items => items.mapM readGroupItem
  | _ => fault .groupShape

/-- Reads a part from under its key, unless the part is already set. The clauses among the
conditions are read first, and this is why they count more than those beside the conditions. -/
def fill {α : Type} (part : Option α) (fields : Entries Json) (key : String)
    (read : Json → Result α) : Result (Option α) :=
  match part, Entries.get? fields key with
  | some v, _ => .ok (some v)
  | none, some j => (read j).map some
  | none, none => .ok none

def fillGroup (group : List String) (fields : Entries Json) : Result (List String) :=
  match group, Entries.get? fields "GROUP" with
  | [], some j => readGroup j
  | group, _ => .ok group

/-- Reads the clauses that are not yet set from the fields of an object. -/
def fillFrom (c : Clauses) (fields : Entries Json) : Result Clauses := do
  let group ← fillGroup c.group fields
  let order ← fill c.order fields "ORDER" Order.ofJson
  let having ← fill c.having fields "HAVING" Conditions.ofJson
  let limit ← fill c.limit fields "LIMIT" Limit.ofJson
  let fullText ← fill c.fullText fields "MATCH" FullText.ofJson
  return { c with group, order, having, limit, fullText }

def ofJson : Json → Result Clauses
  | .obj fields => do
      let conditions ← Node.ofFields (fields.filter fun f => f.1 ∉ jsonKeys)
      fillFrom { conditions } fields
  | _ => fault .whereShape

/-- Reads the clauses of a statement: the object under `WHERE`, and then the clauses beside it. -/
def ofFields (fields : Entries Json) : Result Clauses := do
  let clauses ←
    match Entries.get? fields "WHERE" with
    | some j => ofJson j
    | none => .ok {}
  clauses.fillFrom fields

/-- The filter of the rows: the predicate of the conditions, and the full-text search. -/
def filterSql (s : Settings) (c : Clauses) : Result Fragment := do
  let filter ← c.conditions.predicate s
  match c.fullText with
  | none => return filter
  | some f =>
      let search ← f.toSql s
      return if filter.isEmpty then search else filter ++ .code " AND " :: search

def clauseSql (keyword : String) (f : Fragment) : Fragment :=
  if f.isEmpty then [] else .code keyword :: f

def groupSql (s : Settings) (c : Clauses) : Fragment :=
  clauseSql " GROUP BY " (Fragment.join ", " (c.group.map s.column))

def havingSql (s : Settings) (c : Clauses) : Result Fragment :=
  match c.having with
  | none => .ok []
  | some conditions => (conditions.predicate s).map (clauseSql " HAVING ")

def orderSql (s : Settings) (c : Clauses) : Result Fragment :=
  match c.order with
  | none => .ok []
  | some order => (Order.toSql s order).map (.code " ORDER BY " :: ·)

def limitSql (s : Settings) (c : Clauses) : Result Fragment :=
  match c.limit with
  | none => .ok []
  | some limit => (limit.toSql s.dialect c.order.isSome).map fun text => [.code text]

def toSql (s : Settings) (c : Clauses) : Result Fragment := do
  let filter ← c.filterSql s
  let having ← c.havingSql s
  let order ← c.orderSql s
  let limit ← c.limitSql s
  return clauseSql " WHERE " filter ++ c.groupSql s ++ having ++ order ++ limit

end Clauses

end KeyedQuery
