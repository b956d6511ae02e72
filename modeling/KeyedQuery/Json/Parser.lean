import KeyedQuery.Json.Token

/-!
# Reading JSON

A machine reads the tokens of a text one at a time. Its state says what may come next and holds the
containers that are open, the innermost first. Containers may be open only up to a given depth. In
an object a key that comes again keeps its first place and takes the last value.
-/

namespace KeyedQuery.Json

/-- A container that is still open: the items read so far, the last one first, or the fields read so
far and the key whose value is being read. -/
inductive Frame where
  | array (done : List Json)
  | object (done : Entries Json) (key : String)

inductive Reader where
  /-- A value. -/
  | value (stack : List Frame)
  /-- The first item of an array, or its end. -/
  | firstItem (stack : List Frame)
  /-- The first key of an object, or its end. -/
  | firstKey (stack : List Frame)
  /-- A further key of an object. -/
  | key (done : Entries Json) (stack : List Frame)
  /-- The colon after a key. -/
  | colon (done : Entries Json) (key : String) (stack : List Frame)
  /-- What may follow a complete value: a comma, the end of a container, or the end of the text. -/
  | complete (value : Json) (stack : List Frame)

namespace Reader

def begin (limit : Nat) (stack : List Frame) : Token → Option Reader
  | .openArray => if stack.length + 1 < limit then some (firstItem stack) else none
  | .openObject => if stack.length + 1 < limit then some (firstKey stack) else none
  | .text s => some (complete (.str s) stack)
  | .scalar v => some (complete v stack)
  | .closeArray => none
  | .closeObject => none
  | .comma => none
  | .colon => none

/-- Reads the token after a complete value inside the innermost open container. -/
def proceed (v : Json) : List Frame → Token → Option Reader
  | .array done :: stack, .comma => some (value (.array (v :: done) :: stack))
  | .array done :: stack, .closeArray => some (complete (.arr (v :: done).reverse) stack)
  | .object done k :: stack, .comma => some (key (Entries.insert done k v) stack)
  | .object done k :: stack, .closeObject =>
      some (complete (.obj (Entries.insert done k v)) stack)
  | _, _ => none

def step (limit : Nat) : Reader → Token → Option Reader
  | value stack, t => begin limit stack t
  | firstItem stack, .closeArray => some (complete (.arr []) stack)
  | firstItem stack, t => begin limit (.array [] :: stack) t
  | firstKey stack, .closeObject => some (complete (.obj []) stack)
  | firstKey stack, .text k => some (colon [] k stack)
  | firstKey _, _ => none
  | key done stack, .text k => some (colon done k stack)
  | key _ _, _ => none
  | colon done k stack, .colon => some (value (.object done k :: stack))
  | colon _ _ _, _ => none
  | complete v stack, t => proceed v stack t

def result? : Reader → Option Json
  | complete v [] => some v
  | _ => none

end Reader

/-- How deep containers may be nested: fewer than this many may be open. -/
def nestingLimit : Nat := 128

/-- Reads a text as one JSON value, with fewer than `limit` containers open at a time. -/
def parseWithin? (limit : Nat) (s : String) : Option Json := do
  let tokens ← tokenize s.toList
  let reader ← tokens.foldlM (Reader.step limit) (.value [])
  reader.result?

def parse? (s : String) : Option Json :=
  parseWithin? nestingLimit s

end KeyedQuery.Json
