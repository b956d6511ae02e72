import KeyedQuery.Session.Basic

/-!
# Chains of hooks

A chain of hooks sums up what its hooks make of a statement in one action, which the session then
replays. This module shows that the summary loses nothing: hooks act as if the session asked them
one after the other, in whichever way they are grouped into chains. It rests on one invariant, that
the kind of a statement is the one read off its compiled text.
-/

namespace KeyedQuery

/-! ## What actions make of a context -/

/-- The kind is the one read off the compiled text. -/
def Context.WellClassified (c : Context) : Prop := c.kind = .ofSql c.canonicalSql

namespace Context

/-- The first context with the texts of the second one. -/
def settle (c d : Context) : Context :=
  { c with execSql := d.execSql, canonicalSql := d.canonicalSql, kind := .ofSql d.canonicalSql }

theorem wellClassified_settle (c d : Context) : (c.settle d).WellClassified := rfl

theorem WellClassified.settle_self {c : Context} (h : c.WellClassified) : c.settle c = c := by
  unfold settle
  rw [← show c.kind = .ofSql c.canonicalSql from h]

end Context

namespace Action

variable {a : Action} {c c' d : Context}

/-- An action changes nothing but the texts, and with them the kind. -/
theorem settle_of_apply (hc : c.WellClassified) (h : a.apply c = .ok c') : c.settle c' = c' := by
  cases a with
  | proceed =>
      cases h
      exact hc.settle_self
  | modify execSql canonicalSql =>
      cases h
      rfl
  | abort reason => cases h

theorem eq_abort_of_apply {reason : String} (h : a.apply c = .error reason) : a = abort reason := by
  cases a with
  | proceed => cases h
  | modify _ _ => cases h
  | abort _ =>
      cases h
      rfl

/-- The action between two contexts leads from the one to the texts of the other. If the texts are
the same it does not even touch the kind, which is why the kind has to be right. -/
theorem apply_between (hc : c.WellClassified) : (between c d).apply c = .ok (c.settle d) := by
  unfold between
  split
  · next h =>
      rw [apply, Context.settle, h.1, h.2]
      exact congrArg Except.ok hc.settle_self.symm
  · split
    · next h => simp [apply, Context.revise, Context.settle, h]
    · rfl

end Action

/-! ## Chains -/

namespace Hook

variable {m : Type → Type} [Monad m] [LawfulMonad m]

/-- The context that a computation leaves differs from `c` in nothing but the texts and the kind.
This is an equation between computations, whatever their effects, so that one can rewrite with it in
front of a bind. -/
def Settled (c : Context) (x : ExceptT String m Context) : Prop := c.settle <$> x = x

theorem settled_pure {c : Context} (hc : c.WellClassified) :
    Settled c (pure c : ExceptT String m Context) := by
  rw [Settled, map_pure, hc.settle_self]

/-- What follows a settled computation matters only on the contexts that it can leave. -/
theorem Settled.bind_eq {c : Context} {x : ExceptT String m Context} (hx : Settled c x)
    {α : Type} {f g : Context → ExceptT String m α}
    (hfg : ∀ d, f (c.settle d) = g (c.settle d)) : x >>= f = x >>= g := by
  rw [← hx, bind_map_left, bind_map_left]
  exact bind_congr hfg

theorem Settled.bind {c : Context} {x : ExceptT String m Context} (hx : Settled c x)
    {f : Context → ExceptT String m Context} (hf : ∀ d, Settled (c.settle d) (f (c.settle d))) :
    Settled c (x >>= f) := by
  rw [Settled, map_bind]
  -- `c.settle d` settles whatever `c` settles, by definition.
  exact hx.bind_eq hf

theorem run_run (h : Hook m) (c : Context) :
    (h.run c).run = (fun a : Action => a.apply c) <$> h.before c := by
  rw [map_eq_pure_bind]
  exact ExceptT.run_bind_lift (h.before c) fun a => run.liftExcept (a.apply c)

theorem settled_run (h : Hook m) {c : Context} (hc : c.WellClassified) : Settled c (h.run c) := by
  refine ExceptT.ext ?_
  rw [ExceptT.run_map, run_run, ← comp_map]
  refine congrArg (· <$> h.before c) (funext fun a => ?_)
  cases ha : a.apply c with
  | error reason => simp [ha, Except.map]
  | ok c' => simp [ha, Except.map, Action.settle_of_apply hc ha]

theorem settled_foldlM {ι : Type} {f : Context → ι → ExceptT String m Context}
    (hf : ∀ c, c.WellClassified → ∀ i, Settled c (f c i)) (is : List ι) {c : Context}
    (hc : c.WellClassified) : Settled c (is.foldlM f c) := by
  induction is generalizing c with
  | nil => exact settled_pure hc
  | cons i is ih =>
      rw [List.foldlM_cons]
      exact (hf c hc i).bind fun d => ih (c.wellClassified_settle d)

theorem settled_runAll (hooks : List (Hook m)) {c : Context} (hc : c.WellClassified) :
    Settled c (runAll hooks c) :=
  settled_foldlM (fun _ hc h => settled_run h hc) hooks hc

/-- A chain does what its hooks do one after the other. -/
theorem run_chain (hooks : List (Hook m)) {c : Context} (hc : c.WellClassified) :
    (chain hooks).run c = runAll hooks c := by
  rw [← settled_runAll hooks hc]
  refine ExceptT.ext ?_
  rw [run_run, ExceptT.run_map, chain, map_bind, map_eq_pure_bind]
  refine bind_congr fun r => ?_
  cases r with
  | error reason => simp [Action.apply, Except.map]
  | ok d => simp [Action.apply_between hc, Except.map]

end Hook

/-! ## Hooks in groups -/

/-- Hooks in chains of chains. The leaves are labels instead of hooks, so that one tree groups plain
hooks, recorded hooks and monitors. -/
inductive Grouping (ι : Type) where
  | single (i : ι)
  | chain (parts : List (Grouping ι))

namespace Grouping

variable {ι : Type}

section

variable {m : Type → Type} [Monad m] (H : ι → Hook m)

mutual

def toHook : Grouping ι → Hook m
  | single i => H i
  | chain parts => Hook.chain (toHooks parts)

def toHooks : List (Grouping ι) → List (Hook m)
  | [] => []
  | T :: rest => toHook T :: toHooks rest

end

end

mutual

/-- The labels, in the order of the hooks. -/
def leaves : Grouping ι → List ι
  | single i => [i]
  | chain parts => leavesOf parts

def leavesOf : List (Grouping ι) → List ι
  | [] => []
  | T :: rest => leaves T ++ leavesOf rest

end

variable {m : Type → Type} [Monad m] [LawfulMonad m] (H : ι → Hook m)

/-- Asks the hooks under the labels one after the other. -/
def runLeaves (labels : List ι) (c : Context) : ExceptT String m Context :=
  labels.foldlM (fun c i => (H i).run c) c

theorem runLeaves_append (before after : List ι) (c : Context) :
    runLeaves H (before ++ after) c = runLeaves H before c >>= runLeaves H after :=
  List.foldlM_append

mutual

/-- However hooks are grouped, they act one after the other. -/
theorem run_toHook : (T : Grouping ι) → {c : Context} → c.WellClassified →
    (T.toHook H).run c = runLeaves H T.leaves c
  | single i, c, _ => by
      rw [toHook, leaves, runLeaves, List.foldlM_cons]
      exact (bind_pure _).symm
  | chain parts, c, hc => by
      rw [toHook, Hook.run_chain _ hc, leaves, runAll_toHooks parts hc]

theorem runAll_toHooks : (parts : List (Grouping ι)) → {c : Context} → c.WellClassified →
    Hook.runAll (toHooks H parts) c = runLeaves H (leavesOf parts) c
  | [], _, _ => rfl
  | T :: rest, c, hc => by
      rw [toHooks, leavesOf, runLeaves_append, ← run_toHook T hc, Hook.runAll, List.foldlM_cons]
      exact ((T.toHook H).settled_run hc).bind_eq fun d =>
        runAll_toHooks rest (c.wellClassified_settle d)

end

variable (c : Context) (nanoseconds : Nat) (o : Outcome)

mutual

theorem after_toHook : (T : Grouping ι) →
    (T.toHook H).after c nanoseconds o = T.leaves.forM fun i => (H i).after c nanoseconds o
  | single i => by
      rw [toHook, leaves]
      exact (bind_pure _).symm
  | chain parts => forM_after_toHooks parts

theorem forM_after_toHooks : (parts : List (Grouping ι)) →
    ((toHooks H parts).forM fun h => h.after c nanoseconds o) =
      (leavesOf parts).forM fun i => (H i).after c nanoseconds o
  | [] => rfl
  | T :: rest => by
      change ((T.toHook H).after c nanoseconds o >>= fun _ =>
        (toHooks H rest).forM fun h => h.after c nanoseconds o) = _
      rw [after_toHook T, forM_after_toHooks rest, leavesOf]
      exact List.forM_append.symm

end

end Grouping

/-! ## Sessions with hooks in groups -/

namespace Session

variable {ι : Type} {m : Type → Type} [Monad m] (s : Session m) (H : ι → Hook m)

variable [LawfulMonad m]

end Session

end KeyedQuery
