import KeyedQuery.Identifier

/-!
# Keys

A key of a condition or of an assignment names a column. The marker of raw expressions may stand
before the column, and an operator in brackets after it:

    key     = ["#"] segment ("." segment)* ["[" operator "]"]
    segment = one or more letters, digits, "_" and "-"

Which operators there are is up to the reader of operators that `Key.parse` is given.
-/

namespace KeyedQuery

/-- A key: a column, perhaps marked as raw, with an operator of the type `α` or none. -/
structure Key (α : Type) where
  raw : Bool
  column : String
  operator : Option α
deriving DecidableEq, Repr

namespace Key

variable {α : Type}

def isColumnChar (c : Char) : Bool :=
  c.isAlphanum || c == '_' || c == '.' || c == '-'

def columnFault? (column : List Char) : Option KeyFault :=
  if column = [] then some .missingColumn
  else
    match column.find? fun c => !isColumnChar c with
    | some c => some (.invalidCharacter c)
    | none =>
        if (Text.splitOnP (· == '.') column).any List.isEmpty then some .emptySegment else none

def readOperator (read? : String → Option α) (cs : List Char) : Except KeyFault α :=
  match [']'].isSuffixOf? cs with
  | none => .error .unterminatedOperator
  | some inner =>
      let suffix := String.ofList inner
      match read? suffix with
      | none => .error (.unknownOperator suffix)
      | some op => .ok op

/-- Reads a key without its marker: the column and the operator. -/
def split (read? : String → Option α) (cs : List Char) : Except KeyFault (String × Option α) := do
  let column := cs.takeWhile (· ≠ '[')
  let operator ←
    match cs.dropWhile (· ≠ '[') with
    | [] => pure none
    | _ :: rest => (readOperator read? rest).map some
  match columnFault? column with
  | some f => throw f
  | none => return (String.ofList column, operator)

def parse (read? : String → Option α) (key : String) : Result (Key α) :=
  let (raw, rest) := Identifier.splitMarker key
  match split read? rest.toList with
  | .ok (column, operator) => .ok { raw, column, operator }
  | .error f => fault (.key key f)

end Key

end KeyedQuery
