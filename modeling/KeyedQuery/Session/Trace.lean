import KeyedQuery.Session.Hook
import KeyedQuery.Text.Printable

/-!
# Traces

Messages about statements for a log, each with a level and named fields, and with the duration of
the statement if it comes after it. A session writes one before a statement and one after it; the
tracing hook writes the text of every statement, cut to a number of bytes, and a warning for every
failure.
-/

namespace KeyedQuery.Trace

inductive Level where
  | error
  | warn
  | info
  | debug
  | trace
deriving DecidableEq, Repr

def Level.name : Level → String
  | error => "ERROR"
  | warn => "WARN"
  | info => "INFO"
  | debug => "DEBUG"
  | trace => "TRACE"

/-- A message of a log. The duration stands apart from the other fields, as a number and not as a
text. -/
structure Event where
  level : Level
  fields : Entries String
  /-- The nanoseconds that a statement took, in a message after it. -/
  nanoseconds : Option Nat := none
deriving DecidableEq, Repr

def codePoint (c : Char) : List Char :=
  '\\' :: 'u' :: '\x7b' :: Nat.toDigits 16 c.toNat ++ ['\x7d']

def escapeChar (c : Char) : List Char :=
  if c = '"' then ['\\', '"']
  else if c = '\\' then ['\\', '\\']
  else if c = '\x00' then ['\\', '0']
  else if c = '\t' then ['\\', 't']
  else if c = '\n' then ['\\', 'n']
  else if c = '\r' then ['\\', 'r']
  else if Text.isPrintable c then [c]
  else codePoint c

def quote (s : String) : String :=
  String.ofList ('"' :: s.toList.flatMap escapeChar ++ ['"'])

def fieldsText (fields : Entries String) : String :=
  "\x7b" ++ ", ".intercalate (fields.map fun (key, v) => quote key ++ ": " ++ quote v) ++ "\x7d"

def tagText (c : Context) : String := c.tag.getD "-"

def executing (c : Context) : Event where
  level := .debug
  fields := [("message", "executing statement"), ("query_type", c.kind.title), ("tag", tagText c)]

def finished (nanoseconds : Nat) (o : Outcome) : Event where
  level := .debug
  fields := [("message", "statement finished"), ("result", o.text)]
  nanoseconds := some nanoseconds

def failed (c : Context) (nanoseconds : Nat) (error : String) : Event where
  level := .warn
  fields := [("message", "statement failed"), ("query_type", c.kind.title), ("tag", tagText c),
    ("error", error)]
  nanoseconds := some nanoseconds

/-- The message with the text of a statement, cut to a number of bytes if one is given. -/
def statement (level : Level) (maxBytes : Option Nat) (c : Context) : Event where
  level := level
  fields := [("query_type", c.kind.title), ("dialect", (c.dialect.map Dialect.name).getD "-"),
    ("tag", tagText c),
    ("sql", match maxBytes with
      | some n => Text.clip n c.execSql
      | none => c.execSql),
    ("fields", fieldsText c.fields)]

def defaultMaxBytes : Nat := 200

/-- The hook that writes every statement to a log, and every failure. -/
def hook {m : Type → Type} [Monad m] (emit : Event → m Unit) (level : Level)
    (maxBytes : Option Nat) : Hook m where
  before c := do
    emit (statement level maxBytes c)
    return .proceed
  after c nanoseconds o :=
    match o with
    | .error text => emit (failed c nanoseconds text)
    | _ => pure ()

end KeyedQuery.Trace
