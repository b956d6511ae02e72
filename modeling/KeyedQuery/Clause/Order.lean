import KeyedQuery.Sql.Literal

/-!
# Order

What rows are ordered by: columns with a direction or without one, and, in MySQL, the place of a
column in a list of values. An item is read from a text such as `age DESC`. The text is read under
simple case folding, so that a long s passes for an s; a direction is only understood in ASCII
letters, and a direction word that is not understood is dropped.
-/

namespace KeyedQuery

inductive Direction where
  | ascending
  | descending
deriving DecidableEq, Repr

namespace Direction

def keyword : Direction → String
  | ascending => "ASC"
  | descending => "DESC"

def read? (word : String) : Option Direction :=
  if Text.sameLetters word "asc" then some ascending
  else if Text.sameLetters word "desc" then some descending
  else none

/-- Whether characters spell a direction under simple case folding. -/
def isWord (cs : List Char) : Bool :=
  cs.map Text.fold == ['a', 's', 'c'] || cs.map Text.fold == ['d', 'e', 's', 'c']

end Direction

inductive OrderItem where
  /-- A column, perhaps with a direction. -/
  | column (name : String) (direction : Option Direction)
  /-- The place of a column in a list of values. -/
  | field (column : String) (values : List Value)

abbrev Order := List OrderItem

namespace OrderItem

/-- The characters of a column to order by, under simple case folding. -/
def isColumnChar (c : Char) : Bool :=
  let d := Text.fold c
  d.isAlphanum || d == '_' || d == '-' || d == '.'

def readDirection? : List Char → Option (Option Direction)
  | [] => some none
  | cs =>
      let word := Text.trimStartChars cs
      if Direction.isWord word then some (Direction.read? (String.ofList word)) else none

def parse (text : String) : Result OrderItem :=
  let cs := Text.trimChars text.toList
  let name := cs.takeWhile isColumnChar
  match readDirection? (cs.dropWhile isColumnChar) with
  | some direction =>
      if name = [] then fault (.orderItem text)
      else .ok (column (String.ofList name) direction)
  | none => fault (.orderItem text)

def toSql (s : Settings) : OrderItem → Result Fragment
  | column name none => .ok (s.column name)
  | column name (some d) => .ok (s.column name ++ [.code s!" {d.keyword}"])
  | field name values =>
      if !s.dialect.isMySql then s.dialect.lacks .orderByField
      else if values.isEmpty || values.any Value.isList then fault (.fieldList name)
      else do
        let values ← Literal.ofScalars values
        return .code "FIELD(" :: s.column name ++ .code ", " :: values ++ [.code ")"]

def ofField (name : String) : Json → Result OrderItem
  | .str text =>
      match Direction.read? text with
      | some d => .ok (column name (some d))
      | none => fault (.direction text name)
  | .arr items => (Value.ofJsonAll items).map (field name)
  | _ => fault (.orderValue name)

def ofItem : Json → Result OrderItem
  | .str text => parse text
  | _ => fault .orderListItem

end OrderItem

namespace Order

/-- Reads an order: one item, an array of items, or an object from columns to directions and lists
of values. -/
def ofJson : Json → Result Order
  | .str text => (OrderItem.parse text).map fun item => [item]
  | .arr items => items.mapM OrderItem.ofItem
  | .obj fields => fields.mapM fun (name, j) => OrderItem.ofField name j
  | _ => fault .orderShape

def toSql (s : Settings) (order : Order) : Result Fragment :=
  if order.isEmpty then fault .emptyOrder
  else (order.mapM (OrderItem.toSql s)).map (Fragment.join ",")

end Order

end KeyedQuery
