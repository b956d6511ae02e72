import KeyedQuery.Settings

/-!
# Identifiers

A table or a column is named by segments between dots, and every segment is quoted on its own. The
table prefix of the settings goes in front of table names: of the only segment of a table name, of
every segment after the first in a name qualified by a database, and of the first segment of a
dotted column name. Two more notations live here. A leading number sign marks the key of a raw
expression, and `name(label)` names something and labels it.

Segments are neither checked nor escaped.
-/

namespace KeyedQuery

inductive Identifier.Part where
  /-- A segment, to be quoted. -/
  | name (text : String)
  /-- The star that stands for all columns. -/
  | star
deriving DecidableEq, Repr

abbrev Identifier := List Identifier.Part

namespace Identifier

/-- The segments of a dotted name; there is at least one. -/
def segments (name : String) : List String :=
  (Text.splitOnP (· == '.') name.toList).map String.ofList

def ofName (name : String) : Identifier := [.name name]

/-- A table, perhaps qualified by a database. -/
def ofTable (name tablePrefix : String) : Identifier :=
  match segments name with
  | [] => []
  | [only] => [.name (tablePrefix ++ only)]
  | first :: rest => .name first :: rest.map fun segment => .name (tablePrefix ++ segment)

/-- Splits the marker of raw expressions off a key: whether it was there, and the rest. -/
def splitMarker (key : String) : Bool × String :=
  match key.toList with
  | '#' :: rest => (true, String.ofList rest)
  | _ => (false, key)

def beforeStar? (name : String) : Option String :=
  (['.', '*'].isSuffixOf? name.toList).map String.ofList

/-- A column: a star, all columns of a table, a column of a table, or a column alone. The marker of
raw expressions is dropped. -/
def ofColumn (name tablePrefix : String) : Identifier :=
  let name := (splitMarker name).2
  if name = "*" then [.star]
  else
    match beforeStar? name with
    | some table => ofTable table tablePrefix ++ [.star]
    | none =>
        match segments name with
        | [] => []
        | [only] => [.name only]
        | table :: rest => .name (tablePrefix ++ table) :: rest.map .name

end Identifier

namespace Label

def isChar (c : Char) : Bool :=
  c.isAlphanum || c == '_' || c == '-'

def isNameChar (c : Char) : Bool :=
  isChar c || c == '.'

def splitBehind? (marker cs : List Char) : Option (String × String) :=
  let name := cs.takeWhile isNameChar
  match (cs.dropWhile isNameChar).dropWhile Text.isBlank with
  | '(' :: inner =>
      let label := inner.takeWhile isChar
      if name ≠ [] ∧ label ≠ [] ∧ inner.dropWhile isChar = [')'] then
        some (String.ofList (marker ++ name), String.ofList label)
      else none
  | _ => none

/-- Splits `name(label)`, where blanks may stand around the whole and before the parenthesis, and
the marker of raw expressions before the name. Any other text is not split. -/
def split? (text : String) : Option (String × String) :=
  match Text.trimChars text.toList with
  | '#' :: rest => splitBehind? ['#'] rest
  | cs => splitBehind? [] cs

end Label

end KeyedQuery
