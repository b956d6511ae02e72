import KeyedQuery.Proofs.Session.Call
import KeyedQuery.Proofs.Session.Chain
import KeyedQuery.Proofs.Session.Insertion
import KeyedQuery.Proofs.StatementKind

/-!
# Hooks that guard a kind of statement

A hook sees the kind of a statement and can refuse the ones of some kinds. That this keeps the
operations of these kinds from the executor, and no other operation, rests on the kinds that are
read off the statements: each is the kind of the operation that has written it.
-/

namespace KeyedQuery

open Recorded

variable {ι σ : Type}

/-! ## Refusals -/

namespace Event

def reachesExecutor : Event ι → Bool
  | query _ _ _ => true
  | execute _ _ _ => true
  | quoteLiteral _ _ => true
  | lastInsertId _ => true
  | _ => false

/-- A hook refuses a statement. -/
def isRefusal : Event ι → Bool
  | before _ _ (.abort _) => true
  | _ => false

theorem isRefusal_event (d : Demand) (tag : Option String) (sql : String)
    (answer : Result d.Answer) : (d.event tag sql answer : Event ι).isRefusal = false := by
  cases d <;> rfl

end Event

/-- The hook refuses the contexts with the property, and no others, in whichever world it is asked.
What it does with the others is left open: it may let them pass, or change their texts. -/
def Hook.RefusesExactly (h : Hook (StateM σ)) (p : Context → Prop) : Prop :=
  ∀ c w, (∃ reason, ((h.before c).run w).1 = .abort reason) ↔ p c

namespace Session

variable {s : Session (StateM σ)} {h : Hook (StateM σ)} {p : Context → Prop} {c : Context}
  {d : Demand} {w : σ}

theorem Asked.exists_action {r : Except String Context} {asked : List (Event Unit)}
    (hhook : s.hook = some h) (hasked : s.Asked c w r asked) :
    r = ((h.before c).run w).1.apply c ∧ asked = [.before () c ((h.before c).run w).1] := by
  cases hasked with
  | unhooked hnone =>
      rw [hhook] at hnone
      cases hnone
  | hooked hsome hbefore =>
      obtain rfl := Option.some.inj (hhook.symm.trans hsome)
      rw [hbefore]
      exact ⟨rfl, rfl⟩

/-- A statement that the hook refuses does not reach the executor. -/
theorem Ran.of_refused {answer : Result d.Answer} {events : List (Event Unit)}
    (hhook : s.hook = some h) (hp : h.RefusesExactly p) (hc : p c)
    (hran : s.Ran d c w answer events) :
    ∃ reason, answer = .error (.aborted reason) ∧ events = [.before () c (.abort reason)] := by
  obtain ⟨reason, hreason⟩ := (hp c w).2 hc
  cases hran with
  | refused hasked =>
      obtain ⟨hr, hevents⟩ := hasked.exists_action hhook
      rw [hreason] at hr hevents
      cases hr
      exact ⟨reason, rfl, hevents⟩
  | performed hasked =>
      obtain ⟨hr, -⟩ := hasked.exists_action hhook
      rw [hreason] at hr
      cases hr

theorem isRefusal_startEvents (s : Session (StateM σ)) (c : Context) :
    ∀ e ∈ (s.startEvents c : List (Event ι)), e.isRefusal = false := by
  unfold startEvents
  split <;> simp [Event.isRefusal]

theorem isRefusal_hookEvents (s : Session (StateM σ)) (c : Context) (nanoseconds : Nat)
    (o : Outcome) : ∀ e ∈ s.hookEvents c nanoseconds o, e.isRefusal = false := by
  unfold hookEvents
  split <;> simp [Event.isRefusal]

theorem isRefusal_completionEvents (s : Session (StateM σ)) (c : Context) (nanoseconds : Nat)
    (o : Outcome) :
    ∀ e ∈ (s.completionEvents c nanoseconds o : List (Event ι)), e.isRefusal = false := by
  unfold completionEvents slowEvents
  split
  · split <;> simp [Event.isRefusal]
  · simp

/-- A statement that the hook does not refuse is run by the executor, whose answer is that of the
statement. -/
theorem Ran.of_passed {answer : Result d.Answer} {events : List (Event Unit)}
    (hhook : s.hook = some h) (hp : h.RefusesExactly p) (hc : ¬p c)
    (hran : s.Ran d c w answer events) :
    (∀ e ∈ events, e.isRefusal = false) ∧ ∃ tag sql, d.event tag sql answer ∈ events := by
  have hpass (reason : String) : ((h.before c).run w).1 ≠ .abort reason :=
    fun haction => hc ((hp c w).1 ⟨reason, haction⟩)
  cases hran with
  | refused hasked =>
      obtain ⟨hr, -⟩ := hasked.exists_action hhook
      exact absurd (Action.eq_abort_of_apply hr.symm) (hpass _)
  | @performed c' asked answer start finish hasked =>
      obtain ⟨-, rfl⟩ := hasked.exists_action hhook
      have hbefore : (Event.before () c ((h.before c).run w).1).isRefusal = false := by
        cases haction : ((h.before c).run w).1 with
        | abort reason => exact absurd haction (hpass reason)
        | _ => rfl
      refine ⟨?_, c.tag, c'.execSql, by simp [callEvents]⟩
      simp only [callEvents, List.forall_mem_append, List.forall_mem_cons]
      have hcall : (d.event c.tag c'.execSql answer : Event Unit).isRefusal = false :=
        Event.isRefusal_event _ _ _ _
      exact ⟨⟨hbefore, List.forall_mem_nil _⟩,
        ⟨s.isRefusal_startEvents c', rfl, hcall, rfl, List.forall_mem_nil _⟩,
        s.isRefusal_hookEvents _ _ _, s.isRefusal_completionEvents _ _ _⟩

/-! ## Rows -/

variable {contexts : List Context} {w' : σ} {events : List (Event Unit)}

theorem RowsInserted.of_passed {ids : List (Option String)} (hhook : s.hook = some h)
    (hp : h.RefusesExactly p) (hcontexts : ∀ c ∈ contexts, ¬p c)
    (hrows : s.RowsInserted contexts w ids events w') : ∀ e ∈ events, e.isRefusal = false := by
  induction hrows with
  | nil w => exact List.forall_mem_nil _
  | cons row _ ih =>
      rw [List.forall_mem_cons] at hcontexts
      obtain ⟨-, ran, -⟩ := row
      rw [List.forall_mem_append, List.forall_mem_append]
      exact ⟨⟨(ran.of_passed hhook hp hcontexts.1).1, List.forall_mem_singleton.2 rfl⟩,
        ih hcontexts.2⟩

/-- If no row is refused, it is the executor that the statement of a row fails at. -/
theorem RowsStopped.of_passed {e : Error} (hhook : s.hook = some h) (hp : h.RefusesExactly p)
    (hcontexts : ∀ c ∈ contexts, ¬p c) (hrows : s.RowsStopped contexts w e events w') :
    (∀ e ∈ events, e.isRefusal = false) ∧ ∃ tag sql, .execute tag sql (.error e) ∈ events := by
  obtain ⟨rows, row⟩ := hrows
  rw [List.forall_mem_append, List.forall_mem_cons] at hcontexts
  obtain ⟨hbefore, hc, -⟩ := hcontexts
  obtain ⟨hevents, tag, sql, hrun⟩ := row.ran.of_passed hhook hp hc
  exact ⟨List.forall_mem_append.2 ⟨rows.of_passed hhook hp hbefore, hevents⟩, tag, sql,
    List.mem_append_right _ hrun⟩

end Session

/-! ## Calls -/

theorem Session.kind_tableContext {m : Type → Type} (s : Session m) (table sql : String) :
    (s.tableContext table sql).kind = .ofSql sql := rfl

namespace Call

/-- The kind of the statement that is written for the call. The calls with a text of their own have
none. -/
def kind? : Call → Option StatementKind
  | query _ _ => none
  | exec _ _ => none
  | select _ => some .select
  | get _ => some .select
  | has _ => some .select
  | aggregate _ _ => some .select
  | count _ => some .select
  | max _ => some .select
  | min _ => some .select
  | avg _ => some .select
  | sum _ => some .select
  | headers _ => some .select
  | multiInsert _ => some .insert
  | update _ => some .update
  | replace _ _ _ => some .update
  | delete _ => some .delete
  | truncate _ => some .other

theorem kind_of_map_tableContext {m : Type → Type} {s : Session m} {table : String}
    {statement : Result String} {kind : StatementKind} {c : Context}
    (hc : statement.map (s.tableContext table) = .ok c)
    (hkind : ∀ {sql}, statement = .ok sql → .ofSql sql = kind) : c.kind = kind := by
  obtain ⟨sql, hsql, rfl⟩ := Result.map_eq_ok_iff.1 hc
  rw [Session.kind_tableContext, hkind hsql]

theorem kind_context {m : Type → Type} {s : Session m} {k : Call} {kind : StatementKind}
    {c : Context} (hkind : k.kind? = some kind) (hc : k.context s = .ok c) : c.kind = kind := by
  have hb := s.builder.tellsKinds
  cases k with
  | query tag sql => cases hkind
  | exec tag sql => cases hkind
  | select q => exact Option.some.inj hkind ▸ kind_of_map_tableContext hc hb.select
  | get q => exact Option.some.inj hkind ▸ kind_of_map_tableContext hc hb.get
  | has q => exact Option.some.inj hkind ▸ kind_of_map_tableContext hc hb.has
  | headers table => exact Option.some.inj hkind ▸ kind_of_map_tableContext hc hb.headers
  | multiInsert i => exact Option.some.inj hkind ▸ kind_of_map_tableContext hc hb.multiInsert
  | update u => exact Option.some.inj hkind ▸ kind_of_map_tableContext hc hb.update
  | replace table substitutions clauses =>
      exact Option.some.inj hkind ▸ kind_of_map_tableContext hc hb.replace
  | delete d => exact Option.some.inj hkind ▸ kind_of_map_tableContext hc hb.delete
  | truncate table => exact Option.some.inj hkind ▸ kind_of_map_tableContext hc hb.truncate
  | _ => exact Option.some.inj hkind ▸ kind_of_map_tableContext hc hb.aggregate

end Call

namespace Session

/-- Deletions never reach the executor, and no other operation of the builder is refused: its
answer is what comes of the answer of the executor. -/
structure GuardsDeletions (s : Session (StateM σ)) : Prop where
  delete (d : Deletion) (w : σ) :
    ∃ r events w', (s.recorded.delete d).run w = (r, events, w') ∧
      (s.delete d).run.run w = (r, w') ∧
      (∀ e ∈ events, e.reachesExecutor = false) ∧
      match s.builder.delete d with
      | .error e => r = .error e
      | .ok _ => ∃ reason, r = .error (.aborted reason)
  perform (k : Call) (kind : StatementKind) (hkind : k.kind? = some kind) (hne : kind ≠ .delete)
    (w : σ) :
    ∃ r events w', (k.perform s.recorded).run w = (r, events, w') ∧
      (k.perform s).run.run w = (r, w') ∧
      (∀ e ∈ events, e.isRefusal = false) ∧
      match k.context s with
      | .error e => r = .error e
      | .ok _ => ∃ tag sql answer, k.demand.event tag sql answer ∈ events ∧
          r = answer.bind k.decode
  insert (i : Insertion) (w : σ) :
    ∃ r events w', (s.recorded.insert i).run w = (r, events, w') ∧
      (s.insert i).run.run w = (r, w') ∧
      (∀ e ∈ events, e.isRefusal = false) ∧
      match s.builder.insert i with
      | .error e => r = .error e
      | .ok statements =>
          match r with
          | .ok ids => ids.length = statements.length
          | .error e => ∃ tag sql, .execute tag sql (.error e) ∈ events

variable {s : Session (StateM σ)} {h : Hook (StateM σ)}

theorem guardsDeletions (hhook : s.hook = some h) (hrefuses : h.RefusesExactly (·.kind = .delete)) :
    s.GuardsDeletions where
  delete d w := by
    change ∃ r events w', ((Call.delete d).perform s.recorded).run w = (r, events, w') ∧ _
    cases hstatement : s.builder.delete d with
    | error e =>
        have hcontext : (Call.delete d).context s = .error e := by
          rw [Call.context, hstatement]
          rfl
        obtain ⟨hrecorded, hrun⟩ := Call.run_of_context_error _ s hcontext w
        exact ⟨_, _, _, hrecorded, hrun, List.forall_mem_nil _, rfl⟩
    | ok sql =>
        have hcontext : (Call.delete d).context s = .ok (s.tableContext d.table sql) := by
          rw [Call.context, hstatement]
          rfl
        obtain ⟨answer, events, w', hran, hrecorded, hrun⟩ :=
          Call.exists_run_of_context_ok _ s hcontext w
        obtain ⟨reason, rfl, rfl⟩ :=
          hran.of_refused hhook hrefuses (Call.kind_context (k := .delete d) rfl hcontext)
        exact ⟨_, _, _, hrecorded, hrun, List.forall_mem_singleton.2 rfl, reason, rfl⟩
  perform k kind hkind hne w := by
    cases hcontext : k.context s with
    | error e =>
        obtain ⟨hrecorded, hrun⟩ := Call.run_of_context_error _ s hcontext w
        exact ⟨_, _, _, hrecorded, hrun, List.forall_mem_nil _, rfl⟩
    | ok c =>
        obtain ⟨answer, events, w', hran, hrecorded, hrun⟩ :=
          Call.exists_run_of_context_ok _ s hcontext w
        rw [← Call.kind_context hkind hcontext] at hne
        obtain ⟨hevents, tag, sql, hmem⟩ := hran.of_passed hhook hrefuses hne
        exact ⟨_, _, _, hrecorded, hrun, hevents, tag, sql, answer, hmem, rfl⟩
  insert i w := by
    cases hstatements : s.builder.insert i with
    | error e =>
        obtain ⟨hrecorded, hrun⟩ := s.run_insert_of_error w hstatements
        exact ⟨_, _, _, hrecorded, hrun, List.forall_mem_nil _, rfl⟩
    | ok statements =>
        obtain ⟨r, events, w', hrecorded, hrun, hresult⟩ := s.exists_run_insert_of_ok w hstatements
        have hkinds : ∀ c ∈ statements.map (s.tableContext i.table), ¬c.kind = .delete := by
          rw [List.forall_mem_map]
          intro sql hsql
          rw [kind_tableContext, Builder.ofSql_of_insert hstatements sql hsql]
          decide
        refine ⟨r, events, w', hrecorded, hrun, ?_⟩
        cases r with
        | ok ids =>
            exact ⟨hresult.of_passed hhook hrefuses hkinds,
              hresult.length_eq.trans (List.length_map _)⟩
        | error e => exact hresult.of_passed hhook hrefuses hkinds

/-- The kinds that hooks see are those of the operations. A hook that refuses the statements of the
kind of deletions, and no others, therefore keeps all deletions from the executor, and nothing
else. -/
theorem kinds_guard_operations (b : Builder) :
    b.TellsKinds ∧
      ∀ {σ : Type} (s : Session (StateM σ)) (h : Hook (StateM σ)), s.hook = some h →
        h.RefusesExactly (·.kind = .delete) → s.GuardsDeletions :=
  ⟨b.tellsKinds, fun _ _ hhook hrefuses => guardsDeletions hhook hrefuses⟩

/-- The hook that counts the deletions that it refuses. -/
def countingGuard : Hook (StateM Nat) :=
  { Hook.silent with
    before := fun c =>
      if c.kind = .delete then modifyGet fun n => (.abort "no deletions here", n + 1)
      else pure .proceed }

theorem kinds_guard_operations_counting :
    (countingGuard.RefusesExactly (·.kind = .delete)) ∧
      GuardsDeletions (σ := Nat)
        { builder := ⟨{ dialect := .mysql }, rfl⟩
          executor := {
            query := fun _ _ => pure (.ok {})
            execute := fun _ _ => pure (.ok 1)
            quoteLiteral := fun _ => pure none
            lastInsertId := pure none }
          monitor := .silent
          hook := some countingGuard
          clock := pure 0
          trace := fun _ => pure () } := by
  have hguard : countingGuard.RefusesExactly (·.kind = .delete) := by
    intro c w
    by_cases hc : c.kind = .delete
    · simp only [countingGuard, hc, if_true, iff_true]
      exact ⟨_, rfl⟩
    · simp [countingGuard, hc]
  exact ⟨hguard, (kinds_guard_operations ⟨{ dialect := .mysql }, rfl⟩).2 _ _ rfl hguard⟩

end Session

end KeyedQuery
