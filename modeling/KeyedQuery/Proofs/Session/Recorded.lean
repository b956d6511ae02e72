import KeyedQuery.Session.Basic

/-!
# Recorded sessions

The parts of a session are state machines over a world of type `σ`: the executor, the hook, the
monitor, the clock and the log answer as they like, and every answer may change the world. A
recorded session is the same session with a record of what happens to its parts: one event for each
call of a part, with the answer that it gets. Recording adds nothing else, which is what `Erases`
says of a recorded computation and the plain one.
-/

namespace KeyedQuery

/-- What happens to a part of a session, and its answer. Hooks are told apart by labels. -/
inductive Event (ι : Type) where
  | before (hook : ι) (c : Context) (a : Action)
  | start (c : Context)
  | query (tag : Option String) (sql : String) (answer : Result RowSet)
  | execute (tag : Option String) (sql : String) (answer : Result UInt64)
  | quoteLiteral (text : String) (answer : Option String)
  | lastInsertId (answer : Option String)
  /-- The clock is read, in nanoseconds. -/
  | reading (answer : Nat)
  | after (hook : ι) (c : Context) (nanoseconds : Nat) (o : Outcome)
  | complete (c : Context) (nanoseconds : Nat) (o : Outcome)
  | slow (c : Context) (nanoseconds : Nat)

/-- Effects on a world, with the events that happen, in order. A computation on a world becomes one
of these by `noted`, which adds an event with the answer, or by `unnoted`, which adds none. -/
def Recorded (ι σ α : Type) : Type := σ → α × List (Event ι) × σ

namespace Recorded

variable {ι σ ε α β : Type}

instance : Monad (Recorded ι σ) where
  pure a := fun w => (a, [], w)
  bind x f := fun w =>
    let (a, events, w') := x w
    let (b, events', w'') := f a w'
    (b, events ++ events', w'')

instance : LawfulMonad (Recorded ι σ) :=
  .mk' _
    (fun x => funext fun w => by
      change ((x w).1, (x w).2.1 ++ [], (x w).2.2) = x w
      rw [List.append_nil])
    (fun _ _ => rfl)
    (fun x f g => funext fun w => by
      change (_, (_ ++ _) ++ _, _) = (_, _ ++ (_ ++ _), _)
      rw [List.append_assoc])

def noted (x : StateM σ α) (event : α → Event ι) : Recorded ι σ α := fun w =>
  let (a, w') := x.run w
  (a, [event a], w')

def unnoted (x : StateM σ α) : Recorded ι σ α := fun w =>
  let (a, w') := x.run w
  (a, [], w')

/-! ## What computations answer -/

variable {w w' w'' : σ} {events events' : List (Event ι)}

theorem bind_apply {x : Recorded ι σ α} {f : α → Recorded ι σ β} {a : α} {b : β}
    (hx : x w = (a, events, w')) (hf : f a w' = (b, events', w'')) :
    (x >>= f) w = (b, events ++ events', w'') := by
  change ((f (x w).1 (x w).2.2).1, (x w).2.1 ++ (f (x w).1 (x w).2.2).2.1, _) = _
  rw [hx, hf]

theorem map_apply (f : α → β) (x : Recorded ι σ α) (w : σ) :
    (f <$> x) w = (f (x w).1, (x w).2) := by
  rw [map_eq_pure_bind]
  exact bind_apply rfl rfl |>.trans (by rw [List.append_nil])

theorem run_bind_of_ok {x : ExceptT ε (Recorded ι σ) α} {f : α → ExceptT ε (Recorded ι σ) β}
    {a : α} {r : Except ε β} (hx : x.run w = (.ok a, events, w'))
    (hf : (f a).run w' = (r, events', w'')) : (x >>= f).run w = (r, events ++ events', w'') := by
  rw [ExceptT.run_bind]
  exact bind_apply hx hf

theorem run_bind_of_error {x : ExceptT ε (Recorded ι σ) α} {f : α → ExceptT ε (Recorded ι σ) β}
    {e : ε} (hx : x.run w = (.error e, events, w')) :
    (x >>= f).run w = (.error e, events, w') := by
  have hbind : (x >>= f).run w = (.error e, events ++ [], w') := by
    rw [ExceptT.run_bind]
    exact bind_apply hx rfl
  rwa [List.append_nil] at hbind

theorem run_lift {x : Recorded ι σ α} {a : α} (hx : x w = (a, events, w')) :
    (ExceptT.lift x : ExceptT ε (Recorded ι σ) α).run w = (.ok a, events, w') := by
  have hbind : (x >>= fun a => pure (.ok a : Except ε α)) w = (.ok a, events ++ [], w') :=
    bind_apply hx rfl
  rwa [List.append_nil] at hbind

theorem run_lift_unnoted_bind (y : StateM σ α) (f : α → ExceptT ε (Recorded ι σ) β) (w : σ) :
    (ExceptT.lift (unnoted y) >>= f).run w = (f (y.run w).1).run (y.run w).2 :=
  rfl

/-! ## Computations without their record -/

/-- Without its record, the computation is the plain one: it gives the same answer and leaves the
same world. So what is said of a recorded run is said of the run of the program itself. -/
def Erases (x : Recorded ι σ α) (y : StateM σ α) : Prop :=
  ∀ w, y.run w = ((x w).1, (x w).2.2)

theorem Erases.run_eq {x : Recorded ι σ α} {y : StateM σ α} (h : Erases x y) {w w' : σ} {a : α}
    {events : List (Event ι)} (hx : x w = (a, events, w')) : y.run w = (a, w') := by
  rw [h w, hx]

theorem erases_noted (y : StateM σ α) (event : α → Event ι) : Erases (noted y event) y :=
  fun _ => rfl

theorem erases_unnoted (y : StateM σ α) : Erases (unnoted y : Recorded ι σ α) y :=
  fun _ => rfl

theorem erases_pure (a : α) : Erases (pure a : Recorded ι σ α) (pure a) :=
  fun _ => rfl

theorem Erases.ite {p : Prop} [Decidable p] {x x' : Recorded ι σ α} {y y' : StateM σ α}
    (h : Erases x y) (h' : Erases x' y') :
    Erases (if p then x else x') (if p then y else y') := by
  split
  · exact h
  · exact h'

theorem Erases.bind {x : Recorded ι σ α} {y : StateM σ α} {f : α → Recorded ι σ β}
    {g : α → StateM σ β} (hx : Erases x y) (hf : ∀ a, Erases (f a) (g a)) :
    Erases (x >>= f) (y >>= g) := by
  intro w
  change (g (y.run w).1).run (y.run w).2 = _
  rw [hx w, hf]
  rfl

theorem Erases.run_bind {x : ExceptT ε (Recorded ι σ) α} {y : ExceptT ε (StateM σ) α}
    {f : α → ExceptT ε (Recorded ι σ) β} {g : α → ExceptT ε (StateM σ) β}
    (hx : Erases x.run y.run) (hf : ∀ a, Erases (f a).run (g a).run) :
    Erases (x >>= f).run (y >>= g).run := by
  rw [ExceptT.run_bind, ExceptT.run_bind]
  refine Erases.bind hx fun r => ?_
  cases r with
  | ok a => exact hf a
  | error e => exact erases_pure _

theorem Erases.run_lift {x : Recorded ι σ α} {y : StateM σ α} (h : Erases x y) :
    Erases (ExceptT.lift x : ExceptT ε (Recorded ι σ) α).run (ExceptT.lift y : ExceptT ε _ α).run :=
  Erases.bind h fun _ => erases_pure _

theorem Erases.run_mapM {γ : Type} {f : γ → ExceptT ε (Recorded ι σ) α}
    {g : γ → ExceptT ε (StateM σ) α} (h : ∀ c, Erases (f c).run (g c).run) (cs : List γ) :
    Erases (cs.mapM f).run (cs.mapM g).run := by
  induction cs with
  | nil =>
      rw [List.mapM_nil, List.mapM_nil]
      exact erases_pure _
  | cons c cs ih =>
      rw [List.mapM_cons, List.mapM_cons]
      exact (h c).run_bind fun _ => ih.run_bind fun _ => erases_pure _

/-! ## What holds of every event -/

/-- Every event that happens has the property. -/
def Emits (P : Event ι → Prop) (x : Recorded ι σ α) : Prop := ∀ w, ∀ e ∈ (x w).2.1, P e

variable {P : Event ι → Prop}

theorem emits_pure (a : α) : Emits P (pure a : Recorded ι σ α) := fun _ => List.forall_mem_nil P

theorem Emits.ite {p : Prop} [Decidable p] {x y : Recorded ι σ α} (hx : Emits P x)
    (hy : Emits P y) : Emits P (if p then x else y) := by
  split
  · exact hx
  · exact hy

theorem Emits.bind {x : Recorded ι σ α} {f : α → Recorded ι σ β} (hx : Emits P x)
    (hf : ∀ a w, (x w).1 = a → Emits P (f a)) : Emits P (x >>= f) :=
  fun w => List.forall_mem_append.2 ⟨hx w, hf _ w rfl _⟩

theorem Emits.map {x : Recorded ι σ α} (h : Emits P x) (f : α → β) : Emits P (f <$> x) := by
  intro w
  rw [map_apply]
  exact h w

/-- The rest of a computation need only be looked at on answers that its first part can give. -/
theorem Emits.run_bind {x : ExceptT ε (Recorded ι σ) α} {f : α → ExceptT ε (Recorded ι σ) β}
    (hx : Emits P x.run) (hf : ∀ a w, (x.run w).1 = .ok a → Emits P (f a).run) :
    Emits P (x >>= f).run := by
  rw [ExceptT.run_bind]
  refine hx.bind fun r w hr => ?_
  cases r with
  | ok a => exact hf a w hr
  | error e => exact emits_pure _

theorem Emits.run_lift {x : Recorded ι σ α} (h : Emits P x) :
    Emits P (ExceptT.lift x : ExceptT ε (Recorded ι σ) α).run :=
  h.bind fun _ _ _ => emits_pure _

theorem Emits.run_mapM {γ : Type} {f : γ → ExceptT ε (Recorded ι σ) α} {cs : List γ}
    (h : ∀ c ∈ cs, Emits P (f c).run) : Emits P (cs.mapM f).run := by
  induction cs with
  | nil =>
      rw [List.mapM_nil]
      exact emits_pure _
  | cons c cs ih =>
      rw [List.mapM_cons]
      exact (h c List.mem_cons_self).run_bind fun _ _ _ =>
        (ih fun c' hc' => h c' (List.mem_cons_of_mem _ hc')).run_bind fun _ _ _ => emits_pure _

end Recorded

open Recorded

/-! ## Recorded parts -/

variable {ι σ : Type}

def Executor.recorded (x : Executor (StateM σ)) : Executor (Recorded ι σ) where
  query tag sql := noted (x.query tag sql) (.query tag sql)
  execute tag sql := noted (x.execute tag sql) (.execute tag sql)
  quoteLiteral text := noted (x.quoteLiteral text) (.quoteLiteral text)
  lastInsertId := noted x.lastInsertId .lastInsertId

def Monitor.recorded (x : Monitor (StateM σ)) : Monitor (Recorded ι σ) where
  start c := noted (x.start c) fun _ => .start c
  complete c nanoseconds o := noted (x.complete c nanoseconds o) fun _ => .complete c nanoseconds o
  slow c nanoseconds := noted (x.slow c nanoseconds) fun _ => .slow c nanoseconds

def Hook.recorded (label : ι) (x : Hook (StateM σ)) : Hook (Recorded ι σ) where
  before c := noted (x.before c) (.before label c)
  after c nanoseconds o := noted (x.after c nanoseconds o) fun _ => .after label c nanoseconds o

/-- Without its record, the hook is the plain one. -/
structure Hook.Erases (h : Hook (Recorded ι σ)) (h' : Hook (StateM σ)) : Prop where
  before (c : Context) : Recorded.Erases (h.before c) (h'.before c)
  after (c : Context) (nanoseconds : Nat) (o : Outcome) :
    Recorded.Erases (h.after c nanoseconds o) (h'.after c nanoseconds o)

theorem Hook.erases_recorded (label : ι) (x : Hook (StateM σ)) : (x.recorded label).Erases x :=
  ⟨fun _ => erases_noted _ _, fun _ _ _ => erases_noted _ _⟩

namespace Session

/-- The session with a record of what happens to its parts, under a hook that keeps a record. -/
def recordedUnder (hook : Option (Hook (Recorded ι σ))) (s : Session (StateM σ)) :
    Session (Recorded ι σ) where
  builder := s.builder
  executor := s.executor.recorded
  monitor := s.monitor.recorded
  hook
  monitoring := s.monitoring
  clock := noted s.clock .reading
  trace e := unnoted (s.trace e)

def recorded (s : Session (StateM σ)) : Session (Recorded Unit σ) :=
  s.recordedUnder (s.hook.map (Hook.recorded ()))

end Session

end KeyedQuery
