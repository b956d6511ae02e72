import KeyedQuery.Session.Statement

/-!
# Hooks

A hook sees a statement before it reaches the executor, and may change it or refuse it. Hooks can be
chained: each sees what the ones before it made of the statement, and the first refusal ends the
chain. After the statement every hook of a chain learns of the outcome.
-/

namespace KeyedQuery

/-- What a hook decides about a statement. -/
inductive Action where
  | proceed
  /-- Runs another text, perhaps under another compiled text. -/
  | modify (execSql : String) (canonicalSql : Option String)
  /-- Refuses the statement. -/
  | abort (reason : String)
deriving DecidableEq, Repr

namespace Action

def apply (c : Context) : Action → Except String Context
  | proceed => .ok c
  | modify execSql canonicalSql => .ok (c.revise execSql canonicalSql)
  | abort reason => .error reason

/-- The action that leads from a context to one with other texts. The kind is not compared: an
action that changes the texts has it read again from the compiled one. -/
def between (c d : Context) : Action :=
  if d.execSql = c.execSql ∧ d.canonicalSql = c.canonicalSql then proceed
  else modify d.execSql (if d.canonicalSql = c.canonicalSql then none else some d.canonicalSql)

end Action

/-- What watches statements, with effects in `m`. -/
structure Hook (m : Type → Type) where
  /-- Decides about a statement. -/
  before (c : Context) : m Action
  /-- Learns of the outcome and of the nanoseconds that it took. -/
  after (c : Context) (nanoseconds : Nat) (o : Outcome) : m Unit

namespace Hook

variable {m : Type → Type} [Monad m]

def silent : Hook m where
  before _ := pure .proceed
  after _ _ _ := pure ()

def run (h : Hook m) (c : Context) : ExceptT String m Context := do
  let action ← h.before c
  liftExcept (action.apply c)
where
  /-- A pure result among effects. -/
  liftExcept (r : Except String Context) : ExceptT String m Context := .mk (pure r)

def runAll (hooks : List (Hook m)) (c : Context) : ExceptT String m Context :=
  hooks.foldlM (fun c h => h.run c) c

def chain (hooks : List (Hook m)) : Hook m where
  before c := do
    match ← (runAll hooks c).run with
    | .ok d => return Action.between c d
    | .error reason => return .abort reason
  after c nanoseconds o := hooks.forM fun h => h.after c nanoseconds o

end Hook

end KeyedQuery
