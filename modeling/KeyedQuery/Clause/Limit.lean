import KeyedQuery.Dialect
import KeyedQuery.Json.Printer

/-!
# Limits

How many rows are taken, and how many are passed over before. Every dialect writes this in a way of
its own. SQL Server demands an order, and Sybase has no form for it.
-/

namespace KeyedQuery

inductive Limit where
  /-- The first rows. -/
  | count (n : UInt64)
  /-- Rows after an offset. -/
  | range (offset count : UInt64)
deriving DecidableEq, Repr

namespace Limit

/-- Reads a number: a JSON number, or a text that holds one between blanks. -/
def readNumber? : Json → Option UInt64
  | .num n => n.toUInt64?
  | .str text => Numeral.readUInt64? (Text.trimChars text.toList)
  | _ => none

def readRange? : Json → Option Limit
  | .arr [first, second] => do
      let o ← readNumber? first
      let n ← readNumber? second
      return range o n
  | _ => none

def ofJson (j : Json) : Result Limit :=
  match readNumber? j with
  | some n => .ok (count n)
  | none =>
      match readRange? j with
      | some limit => .ok limit
      | none => fault (.limit j.render)

def digits (n : UInt64) : String := Numeral.ofNat n.toNat

/-- The clause of a limit, a blank before it; `ordered` says whether an order stands before. -/
def toSql (d : Dialect) (ordered : Bool) (limit : Limit) : Result String :=
  match d, limit with
  | .mysql, count n => .ok s!" LIMIT {digits n}"
  | .mysql, range o n => .ok s!" LIMIT {digits o},{digits n}"
  | .sqlite, count n => .ok s!" LIMIT {digits n}"
  | .sqlite, range o n => .ok s!" LIMIT {digits o},{digits n}"
  | .postgres, count n => .ok s!" LIMIT {digits n}"
  | .postgres, range o n => .ok s!" OFFSET {digits o} LIMIT {digits n}"
  | .oracle, count n => .ok s!" FETCH FIRST {digits n} ROWS ONLY"
  | .oracle, range o n => .ok s!" OFFSET {digits o} ROWS FETCH NEXT {digits n} ROWS ONLY"
  | .mssql, count n =>
      if ordered then .ok s!" OFFSET 0 ROWS FETCH NEXT {digits n} ROWS ONLY"
      else d.lacks .limitWithoutOrder
  | .mssql, range o n =>
      if ordered then .ok s!" OFFSET {digits o} ROWS FETCH NEXT {digits n} ROWS ONLY"
      else d.lacks .limitWithoutOrder
  | .sybase, _ => d.lacks .limit

end Limit

end KeyedQuery
