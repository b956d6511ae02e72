import KeyedQuery.Dialect
import KeyedQuery.Entries
import KeyedQuery.Numeral.Integer
import KeyedQuery.Text.Truncate

/-!
# Statements in a session

What hooks and monitors see of a statement that is run: the text that was compiled, the text that is
handed to the executor, the kind of statement, and what is known about its origin. The kind is read
off the leading keyword of the compiled text, and the outcome of a statement is reported in a short
form.
-/

namespace KeyedQuery

inductive StatementKind where
  | select
  | insert
  | update
  | delete
  | other
deriving DecidableEq, Repr

namespace StatementKind

def name : StatementKind → String
  | select => "select"
  | insert => "insert"
  | update => "update"
  | delete => "delete"
  | other => "other"

def title : StatementKind → String
  | select => "Select"
  | insert => "Insert"
  | update => "Update"
  | delete => "Delete"
  | other => "Other"

/-- Whether characters start with a keyword in any case of letters, and the keyword ends there. -/
def startsWith (keyword : List Char) (cs : List Char) : Bool :=
  Text.sameLetterChars (cs.take keyword.length) keyword &&
    !(cs.drop keyword.length).head?.any fun c => c.isAlphanum || c == '_'

/-- The kind of a statement by its leading keyword. `REPLACE` is a kind of insertion. -/
def ofSql (sql : String) : StatementKind :=
  let cs := Text.trimStartChars sql.toList
  if startsWith "SELECT".toList cs then select
  else if startsWith "INSERT".toList cs || startsWith "REPLACE".toList cs then insert
  else if startsWith "UPDATE".toList cs then update
  else if startsWith "DELETE".toList cs then delete
  else other

end StatementKind

/-- What is seen of a statement. -/
structure Context where
  /-- The text as it was compiled, under which statistics are kept. -/
  canonicalSql : String
  /-- The text for the executor. -/
  execSql : String
  kind : StatementKind
  dialect : Option Dialect := none
  /-- A name for the statement. -/
  tag : Option String := none
  /-- Further facts, in the order of their keys. -/
  fields : Entries String := []
deriving DecidableEq, Repr

namespace Context

def ofSql (sql : String) : Context :=
  { canonicalSql := sql, execSql := sql, kind := .ofSql sql }

/-- Puts a field in the place of the one with its key, or between the keys before and after it. -/
def insertField (key value : String) : Entries String → Entries String
  | [] => [(key, value)]
  | (k, v) :: rest =>
      if key < k then (key, value) :: (k, v) :: rest
      else if key = k then (key, value) :: rest
      else (k, v) :: insertField key value rest

def withField (c : Context) (key value : String) : Context :=
  { c with fields := insertField key value c.fields }

/-- Replaces the text for the executor, and the compiled text if there is another one. The kind is
read again from the compiled text. -/
def revise (c : Context) (execSql : String) (canonicalSql : Option String) : Context :=
  let canonicalSql := canonicalSql.getD c.canonicalSql
  { c with execSql, canonicalSql, kind := .ofSql canonicalSql }

end Context

inductive Outcome where
  | rows (count : Nat)
  | affected (count : UInt64)
  | error (text : String)
deriving DecidableEq, Repr

namespace Outcome

def maxErrorBytes : Nat := 512

def failure (text : String) : Outcome := error (Text.clip maxErrorBytes text)

def isError : Outcome → Bool
  | error _ => true
  | _ => false

def text : Outcome → String
  | rows n => s!"{Numeral.ofNat n} rows"
  | affected n => s!"{Numeral.ofNat n.toNat} affected"
  | error e => s!"error: {e}"

end Outcome

end KeyedQuery
