import KeyedQuery.Error
import KeyedQuery.Text.Blank
import KeyedQuery.Text.Letters

/-!
# Dialects

The dialects of SQL, the ways of quoting identifiers, and the features that some dialects lack.
-/

namespace KeyedQuery

inductive Dialect where
  | mysql
  | postgres
  | mssql
  | sqlite
  | oracle
  | sybase
deriving DecidableEq, Repr

namespace Dialect

def name : Dialect → String
  | mysql => "mysql"
  | postgres => "postgres"
  | mssql => "mssql"
  | sqlite => "sqlite"
  | oracle => "oracle"
  | sybase => "sybase"

/-- The dialect with this name or one of its other names, in small letters. -/
def ofName? (name : String) : Option Dialect :=
  if name = "mysql" ∨ name = "mariadb" then some mysql
  else if name = "postgres" ∨ name = "postgresql" ∨ name = "pgsql" then some postgres
  else if name = "mssql" ∨ name = "sqlserver" then some mssql
  else if name = "sqlite" then some sqlite
  else if name = "oracle" then some oracle
  else if name = "sybase" then some sybase
  else none

def read (text : String) : Result Dialect :=
  let name := Text.lower (Text.trim text)
  match ofName? name with
  | some d => .ok d
  | none => fault (.unknownDialect name)

def escapesBackslash : Dialect → Bool
  | mysql => true
  | _ => false

/-- Whether the dialect has the constructs that only MySQL knows: ordering by a list of values,
full-text predicates and modified insert verbs. -/
def isMySql : Dialect → Bool
  | mysql => true
  | _ => false

end Dialect

inductive QuoteStyle where
  /-- Between double quotes. -/
  | ansi
  /-- Between backticks. -/
  | backtick
  /-- Between square brackets. -/
  | bracket
deriving DecidableEq, Repr

namespace QuoteStyle

def opening : QuoteStyle → Char
  | ansi => '"'
  | backtick => '\x60'
  | bracket => '['

def closing : QuoteStyle → Char
  | ansi => '"'
  | backtick => '\x60'
  | bracket => ']'

def title : QuoteStyle → String
  | ansi => "Ansi"
  | backtick => "Backtick"
  | bracket => "Bracket"

def ofName? (name : String) : Option QuoteStyle :=
  if name = "ansi" then some ansi
  else if name = "backtick" then some backtick
  else if name = "bracket" then some bracket
  else none

/-- Reads the name of a style, in any case and with blanks around it; `double` is another name of
the style with double quotes. -/
def read (text : String) : Result QuoteStyle :=
  let name := Text.lower (Text.trim text)
  if name = "double" then .ok ansi
  else
    match ofName? name with
    | some q => .ok q
    | none => fault (.unknownQuoteStyle name)

def supportedBy : QuoteStyle → Dialect → Bool
  | ansi, _ => true
  | backtick, d => d == .mysql || d == .sqlite
  | bracket, d => d == .mssql || d == .sybase || d == .sqlite

end QuoteStyle

/-- A construct that some dialects lack. -/
inductive Feature where
  | identifierQuoting (style : QuoteStyle)
  | orderByField
  | limit
  | limitWithoutOrder
  | fullText
  | truncate
  | insertVerb (text : String)
deriving DecidableEq, Repr

def Feature.name : Feature → String
  | identifierQuoting style => s!"{style.title} identifier quoting"
  | orderByField => "ORDER BY FIELD()"
  | limit => "LIMIT"
  | limitWithoutOrder => "LIMIT without ORDER BY"
  | fullText => "MATCH ... AGAINST"
  | truncate => "TRUNCATE TABLE"
  | insertVerb text => text

def Dialect.lacks {α : Type} (d : Dialect) (f : Feature) : Result α :=
  .error (.dialectMismatch d.name f.name)

end KeyedQuery
