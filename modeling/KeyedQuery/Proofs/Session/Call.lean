import KeyedQuery.Proofs.Session.Statement

/-!
# Calls of a session

The operations of a session that run one statement, as data. A call compiles a statement or takes
the text it is given, runs it for rows or for the number of rows affected, and decodes the answer.
What happens to the parts of the session is therefore the same for all of them: nothing if there is
no statement, and else what `Session.Ran` says.
-/

namespace KeyedQuery

open Recorded

/-- A call of an operation that runs one statement. The calls are one type, so that the protocol of
a statement is proved once and not for every operation. -/
inductive Call where
  | query (tag : Option String) (sql : String)
  | exec (tag : Option String) (sql : String)
  | select (q : Query)
  | get (q : Query)
  | has (q : Query)
  | aggregate (a : Aggregate) (q : Query)
  | count (q : Query)
  | max (q : Query)
  | min (q : Query)
  | avg (q : Query)
  | sum (q : Query)
  | headers (table : String)
  | multiInsert (i : Insertion)
  | update (u : Update)
  | replace (table : String) (substitutions : List Substitution) (clauses : Clauses)
  | delete (d : Deletion)
  | truncate (table : String)

namespace Session

variable {m : Type → Type} [Monad m] [LawfulMonad m] {α β γ : Type}

theorem lift_map_bind (r : Result α) (f : α → β) (g : β → ExceptT Error m γ) :
    (lift (r.map f) >>= g) = (do
      let a ← lift r
      g (f a)) := by
  cases r with
  | error e => exact (lift_error_bind e g).trans (lift_error_bind e _).symm
  | ok a => exact (lift_ok_bind (f a) g).trans (lift_ok_bind a fun a => g (f a)).symm

theorem lift_map (r : Result α) (f : α → β) :
    (lift (r.map f) : ExceptT Error m β) = (do
      let a ← lift r
      return f a) := by
  rw [← lift_map_bind, bind_pure]

variable (s : Session m) (table : String) (statement : Result String)

theorem queryOn_bind (f : RowSet → ExceptT Error m α) :
    (s.queryOn table statement >>= f) = (do
      let c ← lift (statement.map (s.tableContext table))
      let rows ← s.runFor c .rows
      f rows) := by
  simp only [lift_map_bind, runFor_rows]
  exact bind_assoc _ _ _

theorem execOn_eq :
    s.execOn table statement = (do
      let c ← lift (statement.map (s.tableContext table))
      s.runFor c .count >>= pure) := by
  simp only [lift_map_bind, runFor_count, bind_pure]
  rfl

end Session

namespace Call

def Answer : Call → Type
  | query _ _ => RowSet
  | exec _ _ => UInt64
  | select _ => List Record
  | get _ => Option Record
  | has _ => Bool
  | aggregate _ _ => Value
  | count _ => Int64
  | max _ => Value
  | min _ => Value
  | avg _ => Option Binary64
  | sum _ => Option Binary64
  | headers _ => List String
  | multiInsert _ => UInt64
  | update _ => UInt64
  | replace _ _ _ => UInt64
  | delete _ => UInt64
  | truncate _ => UInt64

def perform {m : Type → Type} [Monad m] (s : Session m) : (k : Call) → ExceptT Error m k.Answer
  | query tag sql => s.query tag sql
  | exec tag sql => s.exec tag sql
  | select q => s.select q
  | get q => s.get q
  | has q => s.has q
  | aggregate a q => s.aggregate a q
  | count q => s.count q
  | max q => s.max q
  | min q => s.min q
  | avg q => s.avg q
  | sum q => s.sum q
  | headers table => s.headers table
  | multiInsert i => s.multiInsert i
  | update u => s.update u
  | replace table substitutions clauses => s.replace table substitutions clauses
  | delete d => s.delete d
  | truncate table => s.truncate table

/-! ## The parts of a call -/

/-- What the statement is run for. -/
def demand : Call → Demand
  | query _ _ => .rows
  | exec _ _ => .count
  | select _ => .rows
  | get _ => .rows
  | has _ => .rows
  | aggregate _ _ => .rows
  | count _ => .rows
  | max _ => .rows
  | min _ => .rows
  | avg _ => .rows
  | sum _ => .rows
  | headers _ => .rows
  | multiInsert _ => .count
  | update _ => .count
  | replace _ _ _ => .count
  | delete _ => .count
  | truncate _ => .count

/-- The statement as the hook sees it first, or the reason why there is none. -/
def context {m : Type → Type} (s : Session m) : Call → Result Context
  | query tag sql => .ok { s.context sql with tag }
  | exec tag sql => .ok { s.context sql with tag }
  | select q => (s.builder.select q).map (s.tableContext q.table)
  | get q => (s.builder.get q).map (s.tableContext q.table)
  | has q => (s.builder.has q).map (s.tableContext q.table)
  | aggregate a q => (s.builder.aggregate a q).map (s.tableContext q.table)
  | count q => (s.builder.aggregate .count q).map (s.tableContext q.table)
  | max q => (s.builder.aggregate .max q).map (s.tableContext q.table)
  | min q => (s.builder.aggregate .min q).map (s.tableContext q.table)
  | avg q => (s.builder.aggregate .avg q).map (s.tableContext q.table)
  | sum q => (s.builder.aggregate .sum q).map (s.tableContext q.table)
  | headers table => (s.builder.headers table).map (s.tableContext table)
  | multiInsert i => (s.builder.multiInsert i).map (s.tableContext i.table)
  | update u => (s.builder.update u).map (s.tableContext u.table)
  | replace table substitutions clauses =>
      (s.builder.replace table substitutions clauses).map (s.tableContext table)
  | delete d => (s.builder.delete d).map (s.tableContext d.table)
  | truncate table => (s.builder.truncate table).map (s.tableContext table)

def scalar (rows : RowSet) : Value := rows.scalar?.getD .null

/-- What the call answers for the answer of the executor. -/
def decode : (k : Call) → k.demand.Answer → Result k.Answer
  | query _ _, rows => .ok rows
  | exec _ _, n => .ok n
  | select _, rows => .ok (RowSet.records rows)
  | get _, rows => .ok (RowSet.record? rows 0)
  | has _, rows => .ok (((RowSet.scalar? rows).bind Value.asBool?).getD false)
  | aggregate _ _, rows => .ok (scalar rows)
  | count _, rows => (Session.decode .count Value.asInt64? (scalar rows)).map (·.getD 0)
  | max _, rows => .ok (scalar rows)
  | min _, rows => .ok (scalar rows)
  | avg _, rows => Session.decode .avg Value.asBinary64? (scalar rows)
  | sum _, rows => Session.decode .sum Value.asBinary64? (scalar rows)
  | headers _, rows => .ok (RowSet.columns rows)
  | multiInsert _, n => .ok n
  | update _, n => .ok n
  | replace _ _ _, n => .ok n
  | delete _, n => .ok n
  | truncate _, n => .ok n

section

variable {m : Type → Type} [Monad m] [LawfulMonad m] (s : Session m)

theorem aggregate_bind (a : Aggregate) (q : Query) {α : Type} (f : Value → ExceptT Error m α) :
    (s.aggregate a q >>= f) = (do
      let c ← Session.lift ((s.builder.aggregate a q).map (s.tableContext q.table))
      let rows ← s.runFor c .rows
      f (scalar rows)) := by
  rw [← s.queryOn_bind]
  refine (bind_assoc _ _ _).trans (bind_congr fun rows => ?_)
  exact pure_bind _ _

/-- Every call takes a statement, runs it, and decodes the answer. -/
theorem perform_eq (k : Call) :
    k.perform s = (do
      let c ← Session.lift (k.context s)
      let answer ← s.runFor c k.demand
      Session.lift (k.decode answer)) := by
  cases k with
  | query tag sql =>
      rw [context, Session.lift_ok_bind]
      exact (bind_pure _).symm
  | exec tag sql =>
      rw [context, Session.lift_ok_bind]
      exact (bind_pure _).symm
  | select q => exact s.queryOn_bind _ _ _
  | get q => exact s.queryOn_bind _ _ _
  | has q => exact s.queryOn_bind _ _ _
  | aggregate a q => exact s.queryOn_bind _ _ _
  | count q =>
      refine (aggregate_bind s .count q _).trans (bind_congr fun c => bind_congr fun rows => ?_)
      exact (Session.lift_map _ _).symm
  | max q => exact s.queryOn_bind _ _ _
  | min q => exact s.queryOn_bind _ _ _
  | avg q => exact aggregate_bind s .avg q _
  | sum q => exact aggregate_bind s .sum q _
  | headers table => exact s.queryOn_bind _ _ _
  | multiInsert i => exact s.execOn_eq _ _
  | update u => exact s.execOn_eq _ _
  | replace table substitutions clauses => exact s.execOn_eq _ _
  | delete d => exact s.execOn_eq _ _
  | truncate table => exact s.execOn_eq _ _

end

/-! ## What happens -/

variable {ι σ : Type} (k : Call) (s : Session (StateM σ))

theorem context_recordedUnder (hook : Option (Hook (Recorded ι σ))) :
    k.context (s.recordedUnder hook) = k.context s := by
  cases k <;> rfl

theorem erases_perform {hook : Option (Hook (Recorded ι σ))}
    (hhook : Option.Rel Hook.Erases hook s.hook) :
    Erases (k.perform (s.recordedUnder hook)).run (k.perform s).run := by
  rw [perform_eq, perform_eq, context_recordedUnder]
  exact Erases.run_bind (erases_pure _) fun c =>
    Erases.run_bind (s.erases_runFor c hhook _) fun _ => erases_pure _

theorem run_perform_of_context_error {e : Error} (hook : Option (Hook (Recorded ι σ))) (w : σ)
    (h : k.context s = .error e) :
    (k.perform (s.recordedUnder hook)).run w = (.error e, [], w) := by
  rw [perform_eq, context_recordedUnder, h]
  exact run_bind_of_error rfl

theorem run_perform_of_context_ok {c : Context} {hook : Option (Hook (Recorded ι σ))} {w w' : σ}
    {answer : Result k.demand.Answer} {events : List (Event ι)} (h : k.context s = .ok c)
    (hrun : ((s.recordedUnder hook).runFor c k.demand).run w = (answer, events, w')) :
    (k.perform (s.recordedUnder hook)).run w = (answer.bind k.decode, events, w') := by
  rw [perform_eq, context_recordedUnder, h, Session.lift_ok_bind]
  cases answer with
  | error e => exact run_bind_of_error hrun
  | ok v =>
      rw [← List.append_nil events]
      exact run_bind_of_ok hrun rfl

theorem run_of_context_error {e : Error} (h : k.context s = .error e) (w : σ) :
    (k.perform s.recorded).run w = (.error e, [], w) ∧
      (k.perform s).run.run w = (.error e, w) := by
  have hrun := k.run_perform_of_context_error s (s.hook.map (Hook.recorded ())) w h
  exact ⟨hrun, (k.erases_perform s (Session.rel_erases_recorded s.hook)).run_eq hrun⟩

/-- A call with a statement answers what comes of running it. -/
theorem exists_run_of_context_ok {c : Context} (h : k.context s = .ok c) (w : σ) :
    ∃ answer events w', s.Ran k.demand c w answer events ∧
      (k.perform s.recorded).run w = (answer.bind k.decode, events, w') ∧
      (k.perform s).run.run w = (answer.bind k.decode, w') := by
  obtain ⟨answer, events, w', hran, hstatement⟩ := s.exists_ran c w k.demand
  have hrun := k.run_perform_of_context_ok s h hstatement
  exact ⟨answer, events, w', hran, hrun,
    (k.erases_perform s (Session.rel_erases_recorded s.hook)).run_eq hrun⟩

end Call

end KeyedQuery
