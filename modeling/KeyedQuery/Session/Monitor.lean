import KeyedQuery.Session.Statement

/-!
# Monitors and statistics

A monitor is told when a statement starts, when it is complete, and when it was slow. Statistics are
what a history of such events comes to: `Stats.ofEvents` is a fold of single steps. They are kept in
words of 64 bits. A word that counts goes round after the last one; the sum of the durations and the
greatest one stop there.
-/

namespace KeyedQuery

/-- What observes statements, with effects in `m`. -/
structure Monitor (m : Type → Type) where
  /-- A statement is about to run. -/
  start (c : Context) : m Unit
  /-- A statement has run, well or not. -/
  complete (c : Context) (nanoseconds : Nat) (o : Outcome) : m Unit
  /-- A statement took longer than it should. -/
  slow (c : Context) (nanoseconds : Nat) : m Unit

namespace Monitor

variable {m : Type → Type} [Monad m]

def silent : Monitor m where
  start _ := pure ()
  complete _ _ _ := pure ()
  slow _ _ := pure ()

def all (monitors : List (Monitor m)) : Monitor m where
  start c := monitors.forM fun w => w.start c
  complete c nanoseconds o := monitors.forM fun w => w.complete c nanoseconds o
  slow c nanoseconds := monitors.forM fun w => w.slow c nanoseconds

end Monitor

structure Monitoring where
  enabled : Bool := false
  /-- The nanoseconds beyond which a statement is slow. -/
  slowThreshold : Option Nat := none
deriving DecidableEq, Repr

/-- What a history of statements comes to. -/
structure Stats where
  total : UInt64 := 0
  failed : UInt64 := 0
  slow : UInt64 := 0
  select : UInt64 := 0
  insert : UInt64 := 0
  update : UInt64 := 0
  delete : UInt64 := 0
  other : UInt64 := 0
  totalNanoseconds : UInt64 := 0
  maxNanoseconds : UInt64 := 0
  /-- The compiled text of the first statement that took longest. -/
  slowest : Option String := none
deriving DecidableEq, Repr

namespace Stats

inductive Event where
  | complete (c : Context) (nanoseconds : Nat) (o : Outcome)
  | slow (c : Context) (nanoseconds : Nat)
  | reset
deriving DecidableEq, Repr

/-- The last word, which stands for all durations beyond it as well. -/
def longest : UInt64 := 18446744073709551615

def clip (nanoseconds : Nat) : UInt64 := (Numeral.uint64? nanoseconds).getD longest

/-- The sum of two words, put right if the addition went round: the last word stands for every
greater sum. -/
def addClipped (m n : UInt64) : UInt64 :=
  if (Numeral.uint64? (m.toNat + n.toNat)).isNone then longest else m + n

def countKind (s : Stats) : StatementKind → Stats
  | .select => { s with select := s.select + 1 }
  | .insert => { s with insert := s.insert + 1 }
  | .update => { s with update := s.update + 1 }
  | .delete => { s with delete := s.delete + 1 }
  | .other => { s with other := s.other + 1 }

/-- Adds the duration of a statement, and remembers the statement if none took as long. -/
def addDuration (s : Stats) (canonicalSql : String) (nanoseconds : Nat) : Stats :=
  let n := clip nanoseconds
  let s := { s with totalNanoseconds := addClipped s.totalNanoseconds n }
  if s.maxNanoseconds < n then { s with maxNanoseconds := n, slowest := some canonicalSql } else s

def step (s : Stats) : Event → Stats
  | .complete c nanoseconds o =>
      let s := { s with total := s.total + 1, failed := s.failed + if o.isError then 1 else 0 }
      (s.countKind c.kind).addDuration c.canonicalSql nanoseconds
  | .slow _ _ => { s with slow := s.slow + 1 }
  | .reset => {}

def ofEvents (events : List Event) : Stats := events.foldl step {}

def monitor {m : Type → Type} [Monad m] (record : Event → m Unit) : Monitor m where
  start _ := pure ()
  complete c nanoseconds o := record (.complete c nanoseconds o)
  slow c nanoseconds := record (.slow c nanoseconds)

@[simp] theorem ofEvents_nil : ofEvents [] = {} := rfl

theorem ofEvents_concat (events : List Event) (e : Event) :
    ofEvents (events ++ [e]) = (ofEvents events).step e := by
  simp [ofEvents]

end Stats

end KeyedQuery
