import KeyedQuery.Proofs.Session.Recorded

/-!
# Statements of a recorded session

Every operation of a session runs its statements in one way, whether it wants rows or the number of
rows affected. The hook decides first. If it lets the statement pass, the monitor learns that it
starts, the executor is called between two readings of the clock, and the hook and the monitor learn
what became of it. `Session.Ran` says this of the events that happen.
-/

namespace KeyedQuery

open Recorded

/-! ## What statements are run for -/

/-- What a statement is run for: its rows, or the number of rows affected. -/
inductive Demand where
  | rows
  | count

namespace Demand

abbrev Answer : Demand → Type
  | rows => RowSet
  | count => UInt64

def ask {m : Type → Type} (x : Executor m) :
    (d : Demand) → Option String → String → m (Result d.Answer)
  | rows => x.query
  | count => x.execute

def event {ι : Type} : (d : Demand) → Option String → String → Result d.Answer → Event ι
  | rows => .query
  | count => .execute

def outcome : (d : Demand) → d.Answer → Outcome
  | rows, r => .rows r.rows.length
  | count, n => .affected n

/-- What is reported of an answer: its short form, or the text of the error, cut if it is long. -/
def report (d : Demand) : Result d.Answer → Outcome
  | .ok answer => d.outcome answer
  | .error e => .failure e.message

end Demand

theorem Action.tag_of_apply {a : Action} {c c' : Context} (h : a.apply c = .ok c') :
    c'.tag = c.tag := by
  cases a with
  | proceed =>
      cases h
      rfl
  | modify _ _ =>
      cases h
      rfl
  | abort _ => cases h

namespace Session

/-! ## Results among effects -/

section

variable {m : Type → Type} [Monad m] [LawfulMonad m] {α β : Type}

theorem lift_ok_bind (a : α) (f : α → ExceptT Error m β) : (lift (.ok a) >>= f) = f a :=
  pure_bind a f

theorem lift_error_bind (e : Error) (f : α → ExceptT Error m β) :
    (lift (.error e) >>= f) = lift (.error e) := by
  refine ExceptT.ext ?_
  rw [ExceptT.run_bind]
  exact pure_bind _ _

end

/-! ## The steps of a statement -/

section

variable {m : Type → Type} [Monad m] (s : Session m) (c : Context)

/-- Runs a statement for what is demanded. -/
def runFor (d : Demand) : ExceptT Error m d.Answer :=
  s.run c (fun c => d.ask s.executor c.tag c.execSql) d.outcome

theorem runFor_rows : s.runFor c .rows = s.runQuery c := rfl

theorem runFor_count : s.runFor c .count = s.runExec c := rfl

def tellStart : m Unit := if s.monitoring.enabled then s.monitor.start c else pure ()

def tellHook (nanoseconds : Nat) (o : Outcome) : m Unit :=
  match s.hook with
  | some h => h.after c nanoseconds o
  | none => pure ()

def tellSlow (nanoseconds : Nat) : m Unit :=
  if s.monitoring.slowThreshold.any (· < nanoseconds) then s.monitor.slow c nanoseconds
  else pure ()

def tellMonitor (nanoseconds : Nat) (o : Outcome) : m Unit :=
  if s.monitoring.enabled then do
    s.monitor.complete c nanoseconds o
    s.tellSlow c nanoseconds
  else pure ()

/-- Hands the answer of a statement on, when all have learnt of it. -/
def conclude (d : Demand) : Result d.Answer × Nat → ExceptT Error m d.Answer
  | (.ok answer, nanoseconds) => do
      s.trace (Trace.finished nanoseconds (d.outcome answer))
      s.report c nanoseconds (d.outcome answer)
      return answer
  | (.error e, nanoseconds) => do
      s.report c nanoseconds (Outcome.failure e.message)
      throw e

variable [LawfulMonad m]

theorem report_eq (nanoseconds : Nat) (o : Outcome) :
    s.report c nanoseconds o = (do
      s.tellHook c nanoseconds o
      s.tellMonitor c nanoseconds o) := by
  unfold report tellHook
  cases s.hook with
  | none =>
      rw [pure_bind]
      rfl
  | some h => rfl

theorem runFor_eq (d : Demand) :
    s.runFor c d = (do
      let c ← s.applyHook c
      ExceptT.lift (s.tellStart c)
      ExceptT.lift (s.trace (Trace.executing c))
      let answer ← ExceptT.lift (s.timed (d.ask s.executor c.tag c.execSql))
      s.conclude c d answer) := by
  refine bind_congr fun c => ?_
  unfold tellStart
  split
  · refine bind_congr fun _ => bind_congr fun _ => bind_congr fun answer => ?_
    rcases answer with ⟨_ | _, _⟩ <;> rfl
  · rw [ExceptT.lift_pure, pure_bind]
    refine bind_congr fun _ => bind_congr fun answer => ?_
    rcases answer with ⟨_ | _, _⟩ <;> rfl

end

variable {ι σ : Type}

/-! ## The events of a statement -/

section

variable {m : Type → Type} (s : Session m) (c : Context)

def startEvents : List (Event ι) := if s.monitoring.enabled then [.start c] else []

def slowEvents (nanoseconds : Nat) : List (Event ι) :=
  if s.monitoring.slowThreshold.any (· < nanoseconds) then [.slow c nanoseconds] else []

/-- The events of the monitor after a statement was run. -/
def completionEvents (nanoseconds : Nat) (o : Outcome) : List (Event ι) :=
  if s.monitoring.enabled then .complete c nanoseconds o :: s.slowEvents c nanoseconds else []

/-- The events from the start of a statement to the answer of the executor, which is called between
two readings of the clock. -/
def callEvents (tag : Option String) (d : Demand) (answer : Result d.Answer)
    (start finish : Nat) : List (Event ι) :=
  s.startEvents c ++ [.reading start, d.event tag c.execSql answer, .reading finish]

end

section

variable (s : Session (StateM σ)) (hook : Option (Hook (Recorded ι σ))) (c : Context)
  {d : Demand} {w w' : σ}

theorem exists_timed (tag : Option String) (sql : String) (w : σ) :
    ∃ answer start finish w',
      (s.recordedUnder hook).timed (d.ask (s.recordedUnder hook).executor tag sql) w =
        ((answer, finish - start),
          [.reading start, d.event tag sql answer, .reading finish], w') := by
  cases d <;> exact ⟨_, _, _, _, rfl⟩

theorem exists_tellStart (w : σ) :
    ∃ w', (s.recordedUnder hook).tellStart c w = ((), s.startEvents c, w') := by
  unfold tellStart startEvents recordedUnder
  cases s.monitoring.enabled <;> exact ⟨_, rfl⟩

theorem exists_tellSlow (nanoseconds : Nat) (w : σ) :
    ∃ w', (s.recordedUnder hook).tellSlow c nanoseconds w =
      ((), s.slowEvents c nanoseconds, w') := by
  unfold tellSlow slowEvents recordedUnder
  cases s.monitoring.slowThreshold.any (· < nanoseconds) <;> exact ⟨_, rfl⟩

theorem exists_tellMonitor (nanoseconds : Nat) (o : Outcome) (w : σ) :
    ∃ w', (s.recordedUnder hook).tellMonitor c nanoseconds o w =
      ((), s.completionEvents c nanoseconds o, w') := by
  have henabled : (s.recordedUnder hook).monitoring.enabled = s.monitoring.enabled := rfl
  unfold tellMonitor completionEvents
  rw [henabled]
  cases s.monitoring.enabled with
  | false => exact ⟨w, rfl⟩
  | true =>
      have hcomplete : (s.recordedUnder hook).monitor.complete c nanoseconds o w =
        ((), [.complete c nanoseconds o], _) := rfl
      obtain ⟨w', hslow⟩ := s.exists_tellSlow hook c nanoseconds _
      exact ⟨w', bind_apply hcomplete hslow⟩

theorem exists_report (nanoseconds : Nat) (o : Outcome) (w : σ) :
    ∃ told w₁ w₂, (s.recordedUnder hook).tellHook c nanoseconds o w = ((), told, w₁) ∧
      (s.recordedUnder hook).report c nanoseconds o w =
        ((), told ++ s.completionEvents c nanoseconds o, w₂) := by
  obtain ⟨w₂, hmonitor⟩ := s.exists_tellMonitor hook c nanoseconds o
    ((s.recordedUnder hook).tellHook c nanoseconds o w).2.2
  refine ⟨_, _, w₂, rfl, ?_⟩
  rw [report_eq]
  exact bind_apply rfl hmonitor

theorem exists_run_conclude (answer : Result d.Answer) (nanoseconds : Nat) (w : σ) :
    ∃ told w₁ w₂ w₃,
      (s.recordedUnder hook).tellHook c nanoseconds (d.report answer) w₁ = ((), told, w₂) ∧
        ((s.recordedUnder hook).conclude c d (answer, nanoseconds)).run w =
          (answer, told ++ s.completionEvents c nanoseconds (d.report answer), w₃) := by
  cases answer with
  | ok v =>
      obtain ⟨told, w₁, w₂, htold, hreport⟩ := s.exists_report hook c nanoseconds (d.outcome v)
        ((s.trace (Trace.finished nanoseconds (d.outcome v))).run w).2
      refine ⟨told, _, w₁, w₂, htold, ?_⟩
      rw [← List.append_nil (told ++ _)]
      exact (run_lift_unnoted_bind _ _ w).trans (run_bind_of_ok (run_lift hreport) rfl)
  | error e =>
      obtain ⟨told, w₁, w₂, htold, hreport⟩ := s.exists_report hook c nanoseconds
        (.failure e.message) w
      refine ⟨told, _, w₁, w₂, htold, ?_⟩
      rw [← List.append_nil (told ++ _)]
      exact run_bind_of_ok (run_lift hreport) rfl

theorem run_runFor_of_error {e : Error} {asked : List (Event ι)}
    (h : ((s.recordedUnder hook).applyHook c).run w = (.error e, asked, w')) :
    ((s.recordedUnder hook).runFor c d).run w = (.error e, asked, w') := by
  rw [runFor_eq]
  exact run_bind_of_error h

/-- A statement that the hook lets pass runs in the context that the hook leaves. -/
theorem exists_run_runFor {c' : Context} {asked : List (Event ι)}
    (h : ((s.recordedUnder hook).applyHook c).run w = (.ok c', asked, w')) :
    ∃ answer start finish told w₁ w₂ w₃,
      (s.recordedUnder hook).tellHook c' (finish - start) (d.report answer) w₁ = ((), told, w₂) ∧
        ((s.recordedUnder hook).runFor c d).run w =
          (answer, asked ++ (s.callEvents c' c'.tag d answer start finish ++
            (told ++ s.completionEvents c' (finish - start) (d.report answer))), w₃) := by
  obtain ⟨w₁, hstart⟩ := s.exists_tellStart hook c' w'
  obtain ⟨answer, start, finish, w₂, htimed⟩ := s.exists_timed hook (d := d) c'.tag c'.execSql
    ((s.trace (Trace.executing c')).run w₁).2
  obtain ⟨told, w₃, w₄, w₅, htold, hconclude⟩ :=
    s.exists_run_conclude hook c' answer (finish - start) w₂
  refine ⟨answer, start, finish, told, w₃, w₄, w₅, htold, ?_⟩
  rw [runFor_eq, callEvents, List.append_assoc]
  refine run_bind_of_ok h (run_bind_of_ok (run_lift hstart) ?_)
  exact (run_lift_unnoted_bind _ _ w₁).trans (run_bind_of_ok (run_lift htimed) hconclude)

end

/-! ## Statements without their record -/

section

variable (s : Session (StateM σ)) {hook : Option (Hook (Recorded ι σ))} (c : Context)

theorem erases_ask (d : Demand) (tag : Option String) (sql : String) :
    Erases (d.ask (s.recordedUnder hook).executor tag sql) (d.ask s.executor tag sql) := by
  cases d with
  | rows => exact erases_noted _ _
  | count => exact erases_noted _ _

theorem erases_timed {α : Type} {call : Recorded ι σ α} {call' : StateM σ α}
    (h : Erases call call') : Erases ((s.recordedUnder hook).timed call) (s.timed call') :=
  (erases_noted _ _).bind fun _ => h.bind fun _ => (erases_noted _ _).bind fun _ => erases_pure _

theorem erases_tellStart : Erases ((s.recordedUnder hook).tellStart c) (s.tellStart c) :=
  Erases.ite (erases_noted _ _) (erases_pure _)

theorem erases_tellSlow (nanoseconds : Nat) :
    Erases ((s.recordedUnder hook).tellSlow c nanoseconds) (s.tellSlow c nanoseconds) :=
  Erases.ite (erases_noted _ _) (erases_pure _)

theorem erases_tellMonitor (nanoseconds : Nat) (o : Outcome) :
    Erases ((s.recordedUnder hook).tellMonitor c nanoseconds o) (s.tellMonitor c nanoseconds o) :=
  Erases.ite ((erases_noted _ _).bind fun _ => s.erases_tellSlow c nanoseconds) (erases_pure _)

variable (hhook : Option.Rel Hook.Erases hook s.hook)
include hhook

theorem erases_applyHook :
    Erases ((s.recordedUnder hook).applyHook c).run (s.applyHook c).run := by
  unfold applyHook recordedUnder
  generalize s.hook = present at hhook
  cases hhook with
  | none => exact erases_pure _
  | some h => exact ((h.before c).bind fun _ => erases_pure _).bind fun _ => erases_pure _

theorem erases_tellHook (nanoseconds : Nat) (o : Outcome) :
    Erases ((s.recordedUnder hook).tellHook c nanoseconds o) (s.tellHook c nanoseconds o) := by
  unfold tellHook recordedUnder
  generalize s.hook = present at hhook
  cases hhook with
  | none => exact erases_pure _
  | some h => exact h.after c nanoseconds o

theorem erases_report (nanoseconds : Nat) (o : Outcome) :
    Erases ((s.recordedUnder hook).report c nanoseconds o) (s.report c nanoseconds o) := by
  rw [report_eq, report_eq]
  exact (s.erases_tellHook c hhook nanoseconds o).bind fun _ =>
    s.erases_tellMonitor c nanoseconds o

theorem erases_conclude (d : Demand) (answer : Result d.Answer × Nat) :
    Erases ((s.recordedUnder hook).conclude c d answer).run (s.conclude c d answer).run := by
  rcases answer with ⟨e | v, nanoseconds⟩
  · exact (s.erases_report c hhook _ _).run_lift.run_bind fun _ => erases_pure _
  · exact (erases_unnoted _).run_lift.run_bind fun _ =>
      (s.erases_report c hhook _ _).run_lift.run_bind fun _ => erases_pure _

/-- The record of a statement changes nothing of what the statement does. -/
theorem erases_runFor (d : Demand) :
    Erases ((s.recordedUnder hook).runFor c d).run (s.runFor c d).run := by
  rw [runFor_eq, runFor_eq]
  exact (s.erases_applyHook c hhook).run_bind fun c' =>
    (s.erases_tellStart c').run_lift.run_bind fun _ =>
      (erases_unnoted _).run_lift.run_bind fun _ =>
        (s.erases_timed (s.erases_ask d c'.tag c'.execSql)).run_lift.run_bind fun answer =>
          s.erases_conclude c' hhook d answer

end

theorem rel_erases_recorded (hook : Option (Hook (StateM σ))) :
    Option.Rel Hook.Erases (hook.map (Hook.recorded ())) hook := by
  cases hook with
  | none => exact .none
  | some h => exact .some (Hook.erases_recorded () h)

/-! ## Statements of a session with its own hook -/

section

variable (s : Session (StateM σ)) {d : Demand} {c : Context} {w : σ}

/-- The hook, if there is one, is asked about a statement, and answers with the context that it
leaves or with the reason of a refusal. -/
inductive Asked (c : Context) (w : σ) : Except String Context → List (Event Unit) → Prop where
  | unhooked (hook : s.hook = none) : Asked c w (.ok c) []
  | hooked {h : Hook (StateM σ)} {a : Action} (hook : s.hook = some h)
      (before : ((h.before c).run w).1 = a) : Asked c w (a.apply c) [.before () c a]

def hookEvents (c : Context) (nanoseconds : Nat) (o : Outcome) : List (Event Unit) :=
  if s.hook.isSome then [.after () c nanoseconds o] else []

/-- What is answered and what happens when a statement is run for what is demanded. -/
inductive Ran (d : Demand) (c : Context) (w : σ) :
    Result d.Answer → List (Event Unit) → Prop where
  | refused {reason : String} {asked : List (Event Unit)}
      (ask : s.Asked c w (.error reason) asked) : Ran d c w (.error (.aborted reason)) asked
  | performed {c' : Context} {asked : List (Event Unit)} {answer : Result d.Answer}
      {start finish : Nat} (ask : s.Asked c w (.ok c') asked) :
      Ran d c w answer
        (asked ++ (s.callEvents c' c.tag d answer start finish ++
          (s.hookEvents c' (finish - start) (d.report answer) ++
            s.completionEvents c' (finish - start) (d.report answer))))

variable {s}

theorem Asked.tag_eq {c' : Context} {asked : List (Event Unit)}
    (h : s.Asked c w (.ok c') asked) : c'.tag = c.tag := by
  generalize hr : Except.ok c' = r at h
  cases h with
  | unhooked _ =>
      cases hr
      rfl
  | hooked _ _ => exact Action.tag_of_apply hr.symm

variable (s c w)

theorem exists_asked :
    ∃ r asked w', s.Asked c w r asked ∧
      (s.recorded.applyHook c).run w = (r.mapError .aborted, asked, w') := by
  cases hook : s.hook with
  | none =>
      refine ⟨_, _, w, .unhooked hook, ?_⟩
      unfold applyHook recorded recordedUnder
      rw [hook]
      rfl
  | some h =>
      refine ⟨_, _, ((h.before c).run w).2, .hooked hook rfl, ?_⟩
      unfold applyHook recorded recordedUnder
      rw [hook]
      rfl

theorem exists_tellHook (nanoseconds : Nat) (o : Outcome) :
    ∃ w', s.recorded.tellHook c nanoseconds o w = ((), s.hookEvents c nanoseconds o, w') := by
  unfold tellHook hookEvents recorded recordedUnder
  cases s.hook <;> exact ⟨_, rfl⟩

theorem exists_ran (d : Demand) :
    ∃ answer events w', s.Ran d c w answer events ∧
      (s.recorded.runFor c d).run w = (answer, events, w') := by
  obtain ⟨r, asked, w', hasked, happly⟩ := s.exists_asked c w
  cases r with
  | error reason => exact ⟨_, _, _, .refused hasked, s.run_runFor_of_error _ c happly⟩
  | ok c' =>
      obtain ⟨answer, start, finish, told, w₁, w₂, w₃, htold, hrun⟩ :=
        s.exists_run_runFor _ c (d := d) happly
      obtain ⟨w₄, hhook⟩ := s.exists_tellHook c' w₁ (finish - start) (d.report answer)
      obtain rfl : told = s.hookEvents c' (finish - start) (d.report answer) :=
        congrArg (fun t => t.2.1) (htold.symm.trans hhook)
      rw [hasked.tag_eq] at hrun
      exact ⟨answer, _, w₃, .performed hasked, hrun⟩

end

end Session

end KeyedQuery
