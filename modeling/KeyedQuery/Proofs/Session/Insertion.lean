import KeyedQuery.Proofs.Result
import KeyedQuery.Proofs.Session.Statement

/-!
# Insertions row by row

An insertion compiles the statements of all its rows before it runs the first one. Then it runs them
in order, asks for the identifier that each generated before it runs the next one, and stops at the
first one that fails: the rows before it are inserted, and the rows after it are never seen.
-/

namespace KeyedQuery

open Recorded

namespace Session

/-- Runs the statement of one row, and asks for the identifier that it generated. -/
def insertRow {m : Type → Type} [Monad m] (s : Session m) (c : Context) :
    ExceptT Error m (Option String) := do
  let _ ← s.runFor c .count
  ExceptT.lift s.executor.lastInsertId

theorem insert_eq {m : Type → Type} [Monad m] [LawfulMonad m] (s : Session m) (i : Insertion) :
    s.insert i = (do
      let statements ← lift (s.builder.insert i)
      (statements.map (s.tableContext i.table)).mapM s.insertRow) := by
  refine bind_congr fun statements => ?_
  rw [List.mapM_map]
  rfl

variable {ι σ : Type} (s : Session (StateM σ))

/-- The statement of a row runs, and the executor is asked for the identifier that it generated. -/
inductive RowInserted (c : Context) (w : σ) : Option String → List (Event Unit) → σ → Prop where
  | intro {w₁ w₂ : σ} {affected : UInt64} {id : Option String} {events : List (Event Unit)}
      (run : (s.runExec c).run.run w = (.ok affected, w₁))
      (ran : s.Ran .count c w (.ok affected) events)
      (asked : s.executor.lastInsertId.run w₁ = (id, w₂)) :
      RowInserted c w id (events ++ [.lastInsertId id]) w₂

structure RowFailed (c : Context) (w : σ) (e : Error) (events : List (Event Unit)) (w' : σ) :
    Prop where
  run : (s.runExec c).run.run w = (.error e, w')
  ran : s.Ran .count c w (.error e) events

/-- The statements of rows all run, one after the other. -/
inductive RowsInserted :
    List Context → σ → List (Option String) → List (Event Unit) → σ → Prop where
  | nil (w : σ) : RowsInserted [] w [] [] w
  | cons {c : Context} {contexts : List Context} {w w₁ w₂ : σ} {id : Option String}
      {ids : List (Option String)} {events events' : List (Event Unit)}
      (row : s.RowInserted c w id events w₁) (rows : RowsInserted contexts w₁ ids events' w₂) :
      RowsInserted (c :: contexts) w (id :: ids) (events ++ events') w₂

/-- The statement of a row fails after those of the rows before it, and nothing more happens. -/
inductive RowsStopped :
    List Context → σ → Error → List (Event Unit) → σ → Prop where
  | intro {before after : List Context} {c : Context} {w w₁ w₂ : σ} {ids : List (Option String)}
      {events events' : List (Event Unit)} {e : Error}
      (rows : s.RowsInserted before w ids events w₁) (row : s.RowFailed c w₁ e events' w₂) :
      RowsStopped (before ++ c :: after) w e (events ++ events') w₂

variable {s} {c : Context} {contexts : List Context} {w w₁ w₂ : σ}
  {events events' : List (Event Unit)}

theorem RowsInserted.length_eq {ids : List (Option String)}
    (h : s.RowsInserted contexts w ids events w₁) : ids.length = contexts.length := by
  induction h with
  | nil w => rfl
  | cons _ _ ih => rw [List.length_cons, List.length_cons, ih]

theorem RowsStopped.cons {id : Option String} {e : Error} (row : s.RowInserted c w id events w₁)
    (h : s.RowsStopped contexts w₁ e events' w₂) :
    s.RowsStopped (c :: contexts) w e (events ++ events') w₂ := by
  obtain ⟨rows, last⟩ := h
  rw [← List.cons_append, ← List.append_assoc]
  exact .intro (.cons row rows) last

variable (s c contexts w)

theorem erases_insert {hook : Option (Hook (Recorded ι σ))}
    (hhook : Option.Rel Hook.Erases hook s.hook) (i : Insertion) :
    Erases ((s.recordedUnder hook).insert i).run (s.insert i).run := by
  rw [insert_eq, insert_eq]
  refine Erases.run_bind (erases_pure _) fun statements => Erases.run_mapM (fun c => ?_) _
  exact Erases.run_bind (s.erases_runFor c hhook .count) fun _ => (erases_noted _ _).run_lift

theorem exists_run_insertRow :
    ∃ r events w', (s.recorded.insertRow c).run w = (r, events, w') ∧
      match r with
      | .ok id => s.RowInserted c w id events w'
      | .error e => s.RowFailed c w e events w' := by
  obtain ⟨answer, events, w₁, hran, hstatement⟩ := s.exists_ran c w .count
  have hrun := (s.erases_runFor c (rel_erases_recorded s.hook) .count).run_eq hstatement
  rw [runFor_count] at hrun
  cases answer with
  | error e => exact ⟨_, _, _, run_bind_of_error hstatement, hrun, hran⟩
  | ok affected =>
      exact ⟨_, _, _, run_bind_of_ok hstatement (run_lift rfl), .intro hrun hran rfl⟩

theorem exists_run_mapM_insertRow :
    ∃ r events w', (contexts.mapM s.recorded.insertRow).run w = (r, events, w') ∧
      match r with
      | .ok ids => s.RowsInserted contexts w ids events w'
      | .error e => s.RowsStopped contexts w e events w' := by
  induction contexts generalizing w with
  | nil => exact ⟨.ok [], [], w, rfl, .nil w⟩
  | cons c contexts ih =>
      rw [List.mapM_cons]
      obtain ⟨r, events, w₁, hrow, hresult⟩ := s.exists_run_insertRow c w
      cases r with
      | error e => exact ⟨_, _, _, run_bind_of_error hrow, .intro (.nil w) hresult⟩
      | ok id =>
          obtain ⟨r, events', w₂, hrows, hresults⟩ := ih w₁
          cases r with
          | error e =>
              exact ⟨_, _, _, run_bind_of_ok hrow (run_bind_of_error hrows), hresults.cons hresult⟩
          | ok ids =>
              refine ⟨.ok (id :: ids), events ++ events', w₂, ?_, .cons hresult hresults⟩
              rw [← List.append_nil events']
              exact run_bind_of_ok hrow (run_bind_of_ok hrows rfl)

theorem run_insert_of_error {i : Insertion} {e : Error} (h : s.builder.insert i = .error e) :
    (s.recorded.insert i).run w = (.error e, [], w) ∧ (s.insert i).run.run w = (.error e, w) := by
  have hbuilder : s.recorded.builder = s.builder := rfl
  have hrun : (s.recorded.insert i).run w = (.error e, [], w) := by
    rw [insert_eq, hbuilder, h, lift_error_bind]
    rfl
  exact ⟨hrun, (s.erases_insert (rel_erases_recorded s.hook) i).run_eq hrun⟩

/-- An insertion with statements runs these in order, up to the first one that fails. -/
theorem exists_run_insert_of_ok {i : Insertion} {statements : List String}
    (h : s.builder.insert i = .ok statements) :
    ∃ r events w', (s.recorded.insert i).run w = (r, events, w') ∧
      (s.insert i).run.run w = (r, w') ∧
      match r with
      | .ok ids => s.RowsInserted (statements.map (s.tableContext i.table)) w ids events w'
      | .error e => s.RowsStopped (statements.map (s.tableContext i.table)) w e events w' := by
  have hbuilder : s.recorded.builder = s.builder := rfl
  obtain ⟨r, events, w', hrows, hresult⟩ :=
    s.exists_run_mapM_insertRow (statements.map (s.tableContext i.table)) w
  have hrun : (s.recorded.insert i).run w = (r, events, w') := by
    rw [insert_eq, hbuilder, h, lift_ok_bind]
    exact hrows
  exact ⟨r, events, w', hrun, (s.erases_insert (rel_erases_recorded s.hook) i).run_eq hrun, hresult⟩

end Session

end KeyedQuery
