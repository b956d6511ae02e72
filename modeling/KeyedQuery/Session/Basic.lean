import KeyedQuery.Builder
import KeyedQuery.Session.Executor
import KeyedQuery.Session.Monitor
import KeyedQuery.Session.Trace
import KeyedQuery.Value.Reading

/-!
# Sessions

A session compiles statements and runs them. A statement that does not compile touches nothing. One
that compiles is shown to the hook, which may change or refuse it; then the monitor is told, the
executor runs it, the hook learns of the outcome, and the monitor after it. Last the answer of the
executor is decoded.

All effects happen in one monad `m`, and the clock is one of them.
-/

namespace KeyedQuery

/-- What statements are run with. The effects are those of any monad `m`, so that one definition is
run by a program, by state machines over a world of their own, and under a record of events. -/
structure Session (m : Type → Type) where
  builder : Builder
  executor : Executor m
  monitor : Monitor m
  hook : Option (Hook m) := none
  monitoring : Monitoring := {}
  /-- The nanoseconds that have passed since some moment. -/
  clock : m Nat
  /-- Writes a message to the log. -/
  trace : Trace.Event → m Unit

namespace Session

variable {m : Type → Type} [Monad m]

def withHook (s : Session m) (h : Hook m) : Session m := { s with hook := some h }

/-- The session with a further hook, after the one it has. -/
def addHook (s : Session m) (h : Hook m) : Session m :=
  match s.hook with
  | none => s.withHook h
  | some present => s.withHook (Hook.chain [present, h])

def context (s : Session m) (sql : String) : Context :=
  { Context.ofSql sql with dialect := some s.builder.settings.dialect }

def tableContext (s : Session m) (table sql : String) : Context :=
  (s.context sql).withField "table" table

def lift {α : Type} (r : Result α) : ExceptT Error m α := .mk (pure r)

def applyHook (s : Session m) (c : Context) : ExceptT Error m Context :=
  match s.hook with
  | none => pure c
  | some h => (h.run c).adapt .aborted

/-- Tells the hook and the monitor what became of a statement. -/
def report (s : Session m) (c : Context) (nanoseconds : Nat) (o : Outcome) : m Unit := do
  match s.hook with
  | some h => h.after c nanoseconds o
  | none => pure ()
  if s.monitoring.enabled then
    s.monitor.complete c nanoseconds o
    if s.monitoring.slowThreshold.any (· < nanoseconds) then
      s.monitor.slow c nanoseconds

def timed {α : Type} (s : Session m) (call : m α) : m (α × Nat) := do
  let start ← s.clock
  let answer ← call
  let finish ← s.clock
  return (answer, finish - start)

/-- Runs a statement by a call of the executor, of whose answer `outcome` is the short form. -/
def run {α : Type} (s : Session m) (c : Context) (call : Context → m (Result α))
    (outcome : α → Outcome) : ExceptT Error m α := do
  let c ← s.applyHook c
  if s.monitoring.enabled then s.monitor.start c
  s.trace (Trace.executing c)
  let (answer, nanoseconds) ← s.timed (call c)
  match answer with
  | .ok v => do
      s.trace (Trace.finished nanoseconds (outcome v))
      s.report c nanoseconds (outcome v)
      return v
  | .error e => do
      s.report c nanoseconds (Outcome.failure e.message)
      throw e

def runQuery (s : Session m) (c : Context) : ExceptT Error m RowSet :=
  s.run c (fun c => s.executor.query c.tag c.execSql) fun r => .rows r.rows.length

def runExec (s : Session m) (c : Context) : ExceptT Error m UInt64 :=
  s.run c (fun c => s.executor.execute c.tag c.execSql) .affected

def query (s : Session m) (tag : Option String) (sql : String) : ExceptT Error m RowSet :=
  s.runQuery { s.context sql with tag }

def exec (s : Session m) (tag : Option String) (sql : String) : ExceptT Error m UInt64 :=
  s.runExec { s.context sql with tag }

def queryOn (s : Session m) (table : String) (statement : Result String) :
    ExceptT Error m RowSet := do
  let sql ← lift statement
  s.runQuery (s.tableContext table sql)

def execOn (s : Session m) (table : String) (statement : Result String) :
    ExceptT Error m UInt64 := do
  let sql ← lift statement
  s.runExec (s.tableContext table sql)

def select (s : Session m) (q : Query) : ExceptT Error m (List Record) := do
  let rows ← s.queryOn q.table (s.builder.select q)
  return rows.records

def get (s : Session m) (q : Query) : ExceptT Error m (Option Record) := do
  let rows ← s.queryOn q.table (s.builder.get q)
  return rows.record? 0

def has (s : Session m) (q : Query) : ExceptT Error m Bool := do
  let rows ← s.queryOn q.table (s.builder.has q)
  return (rows.scalar?.bind Value.asBool?).getD false

/-- An aggregate of a query; `null` if there is no answer. -/
def aggregate (s : Session m) (a : Aggregate) (q : Query) : ExceptT Error m Value := do
  let rows ← s.queryOn q.table (s.builder.aggregate a q)
  return rows.scalar?.getD .null

def decode {α : Type} (a : Aggregate) (read : Value → Option α) : Value → Result (Option α)
  | .null => .ok none
  | v =>
      match read v with
      | some x => .ok (some x)
      | none => .error (.execution s!"{a.name} returned a non-numeric {v.tag.name} value")

def count (s : Session m) (q : Query) : ExceptT Error m Int64 := do
  let value ← s.aggregate .count q
  let n ← lift (decode .count Value.asInt64? value)
  return n.getD 0

def max (s : Session m) (q : Query) : ExceptT Error m Value := s.aggregate .max q

def min (s : Session m) (q : Query) : ExceptT Error m Value := s.aggregate .min q

def avg (s : Session m) (q : Query) : ExceptT Error m (Option Binary64) := do
  let value ← s.aggregate .avg q
  lift (decode .avg Value.asBinary64? value)

def sum (s : Session m) (q : Query) : ExceptT Error m (Option Binary64) := do
  let value ← s.aggregate .sum q
  lift (decode .sum Value.asBinary64? value)

def headers (s : Session m) (table : String) : ExceptT Error m (List String) := do
  let rows ← s.queryOn table (s.builder.headers table)
  return rows.columns

/-- Inserts rows one by one, and collects the identifiers that were generated. All statements are
compiled before the first one is run. -/
def insert (s : Session m) (i : Insertion) : ExceptT Error m (List (Option String)) := do
  let statements ← lift (s.builder.insert i)
  statements.mapM fun sql => do
    let _ ← s.runExec (s.tableContext i.table sql)
    s.executor.lastInsertId

def multiInsert (s : Session m) (i : Insertion) : ExceptT Error m UInt64 :=
  s.execOn i.table (s.builder.multiInsert i)

def update (s : Session m) (u : Update) : ExceptT Error m UInt64 :=
  s.execOn u.table (s.builder.update u)

def replace (s : Session m) (table : String) (substitutions : List Substitution)
    (clauses : Clauses) : ExceptT Error m UInt64 :=
  s.execOn table (s.builder.replace table substitutions clauses)

def delete (s : Session m) (d : Deletion) : ExceptT Error m UInt64 :=
  s.execOn d.table (s.builder.delete d)

def truncate (s : Session m) (table : String) : ExceptT Error m UInt64 :=
  s.execOn table (s.builder.truncate table)

/-- The literal of a text, as the executor writes it, or else as the dialect does. -/
def quote (s : Session m) (text : String) : m String := do
  let literal ← s.executor.quoteLiteral text
  return literal.getD (s.builder.settings.dialect.quote text)

end Session

end KeyedQuery
