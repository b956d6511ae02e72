/-!
# Errors

An error names its cause; the wording of every cause stands in one place, `Error.message`. Most
causes are faults of a description, `Fault`: a part that is missing, has the wrong shape or is
spelt wrongly. The other errors are an operator without a meaning for a value, a construct without a
form in the dialect, a value without a literal, and what the world outside reports: a text that is
no JSON, a failure of the executor, the veto of a hook.

Executors report errors of their own, so a fault may also be described in words.
-/

namespace KeyedQuery

inductive KeyFault where
  | unterminatedOperator
  | unknownOperator (suffix : String)
  | missingColumn
  | invalidCharacter (c : Char)
  | emptySegment
deriving DecidableEq, Repr

inductive Fault where
  | described (text : String)
  -- settings
  | unknownDialect (name : String)
  | unknownQuoteStyle (name : String)
  -- values
  | objectAsValue
  | recordNotObject
  -- keys and conditions
  | key (key : String) (fault : KeyFault)
  | conditionsNotObject
  | emptyGroup (key : String)
  | groupWithoutConditions (key : String)
  | conditionsUnderColumn (key : String)
  | emptyTopLevelGroup (keyword : String)
  -- clauses
  | orderItem (text : String)
  | fieldList (column : String)
  | orderListItem
  | direction (text column : String)
  | orderValue (column : String)
  | orderShape
  | emptyOrder
  | limit (json : String)
  | matchColumns
  | matchKeyword
  | matchColumnItem
  | emptyMatch
  | whereShape
  | groupItem
  | groupShape
  -- queries
  | columnEntry
  | columnsShape
  | unknownAggregate (name : String)
  | aggregateColumn (aggregate : String)
  | joinColumn
  | relationShape
  | joinKey (key : String)
  | unknownReduction (text : String)
  | reductionShape (json : String)
  | queryShape
  | unknownQueryKey (key : String)
  | queryTable
  | joinShape
  -- writes
  | writeShape (kind : String)
  | unknownWriteKey (key : String)
  | writeTable (kind : String)
  | rowsShape
  | noRowsGiven
  | noAssignments
  -- statements
  | missingTable
  | emptyColumnList
  | emptyRelation (table : String)
  | emptyRow
  | noRows
  | rowLength (row columns expected : Nat)
  | rowColumn (row : Nat) (column : String)
  | nothingToSet
  | noSubstitutions
deriving DecidableEq, Repr

/-- Why a description has no statement, or a statement no result. -/
inductive Error where
  /-- The description is at fault. -/
  | malformed (fault : Fault)
  /-- The operator, in display form, has no meaning for values of the tag. -/
  | unsupportedOperator (column operator tag : String)
  /-- The dialect has no form for the feature. -/
  | dialectMismatch (dialect feature : String)
  /-- The value has no literal. -/
  | invalidValue (reason : String)
  /-- A text is no JSON document. -/
  | notJson
  /-- The executor failed. -/
  | execution (reason : String)
  /-- A hook refused to let the statement run. -/
  | aborted (reason : String)
deriving DecidableEq, Repr

abbrev Result (α : Type) := Except Error α

def KeyFault.message : KeyFault → String
  | unterminatedOperator => "unterminated operator"
  | unknownOperator suffix => s!"unknown operator '[{suffix}]'"
  | missingColumn => "missing column name"
  | invalidCharacter c => s!"invalid character '{c}'"
  | emptySegment => "empty name segment"

def Fault.message : Fault → String
  | described text => text
  | unknownDialect name => s!"unknown dialect '{name}'"
  | unknownQuoteStyle name => s!"unknown quote style '{name}'"
  | objectAsValue => "a JSON object cannot be used as a value"
  | recordNotObject => "a record must be a JSON object"
  | key k fault => s!"{fault.message} in key '{k}'"
  | conditionsNotObject => "conditions must be a JSON object"
  | emptyGroup k => s!"empty condition group '{k}'"
  | groupWithoutConditions k =>
      s!"group key '{k}' must hold a condition map or a list of them"
  | conditionsUnderColumn k => s!"nested conditions under non-group key '{k}'"
  | emptyTopLevelGroup keyword => s!"empty top-level {keyword} group"
  | orderItem text => s!"invalid ORDER item '{text}'"
  | fieldList column => s!"ORDER BY FIELD() on '{column}' needs a flat, non-empty value list"
  | orderListItem => "ORDER list items must be strings"
  | direction text column => s!"invalid direction '{text}' for '{column}'"
  | orderValue column => s!"invalid ORDER value for '{column}'"
  | orderShape => "ORDER must be a string, array or object"
  | emptyOrder => "ORDER has no items"
  | limit json => s!"invalid LIMIT {json}"
  | matchColumns => "MATCH needs a 'columns' array"
  | matchKeyword => "MATCH needs a 'keyword' string"
  | matchColumnItem => "MATCH columns must be strings"
  | emptyMatch => "MATCH has no columns"
  | whereShape => "WHERE must be a JSON object"
  | groupItem => "GROUP items must be strings"
  | groupShape => "GROUP must be a string or array"
  | columnEntry => "column entries must be strings"
  | columnsShape => "COLUMNS must be a string, array or object"
  | unknownAggregate name => s!"unknown aggregate '{name}'"
  | aggregateColumn aggregate => s!"{aggregate} column must be a string"
  | joinColumn => "join columns must be strings"
  | relationShape => "join relation must be a string, array or object"
  | joinKey k => s!"invalid join key '{k}'"
  | unknownReduction text => s!"unknown FUN '{text}'"
  | reductionShape json => s!"invalid FUN {json}"
  | queryShape => "query spec must be a string or object"
  | unknownQueryKey k => s!"unknown query key '{k}'"
  | queryTable => "query spec has no table"
  | joinShape => "JOIN must be an object"
  | writeShape kind => s!"{kind} spec must be a JSON object"
  | unknownWriteKey k => s!"unknown key '{k}'"
  | writeTable kind => s!"{kind} spec has no table"
  | rowsShape => "VALUES must be an object or array"
  | noRowsGiven => "insert has no VALUES"
  | noAssignments => "update has no SET"
  | missingTable => "missing table name"
  | emptyColumnList => "empty column list"
  | emptyRelation table => s!"join on '{table}' has no relation columns"
  | emptyRow => "cannot insert an empty row"
  | noRows => "no rows to insert"
  | rowLength row columns expected => s!"row {row} has {columns} columns, expected {expected}"
  | rowColumn row column => s!"row {row} is missing column '{column}'"
  | nothingToSet => "UPDATE has nothing to set"
  | noSubstitutions => "REPLACE has no substitutions"

def Error.message : Error → String
  | malformed fault => s!"Malformed query spec: {fault.message}"
  | unsupportedOperator column operator tag =>
      s!"Unsupported operator '{operator}' for {tag} value on column '{column}'"
  | dialectMismatch dialect feature => s!"{feature} is not supported by the {dialect} dialect"
  | invalidValue reason => s!"Invalid value: {reason}"
  | notJson => "Serialization error: the text is no JSON document"
  | execution reason => s!"Execution error: {reason}"
  | aborted reason => s!"Query aborted: {reason}"

def Error.isMalformed : Error → Bool
  | malformed _ => true
  | _ => false

def Error.isUnsupportedOperator : Error → Bool
  | unsupportedOperator _ _ _ => true
  | _ => false

def Error.isDialectMismatch : Error → Bool
  | dialectMismatch _ _ => true
  | _ => false

def fault {α : Type} (f : Fault) : Result α := .error (.malformed f)

end KeyedQuery
