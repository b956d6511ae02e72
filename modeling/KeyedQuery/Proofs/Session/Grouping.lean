import KeyedQuery.Proofs.Session.Call
import KeyedQuery.Proofs.Session.Chain
import KeyedQuery.Proofs.Session.Insertion

/-!
# Recorded hooks in groups

What happens to the hooks of a session when they are grouped into chains of chains. Each is asked
with the context that the ones before it left, up to the first that refuses; all of them learn of
the outcome; and every context that a part of the session sees is of the kind that its compiled text
tells.
-/

namespace KeyedQuery

open Recorded

variable {ι σ : Type}

/-! ## Hooks asked one after the other -/

namespace Grouping

variable (H : ι → Hook (StateM σ))

def toRecordedHook (T : Grouping ι) : Hook (Recorded ι σ) := T.toHook fun i => (H i).recorded i

theorem erases_run {h : Hook (Recorded ι σ)} {h' : Hook (StateM σ)} (hh : h.Erases h')
    (c : Context) : Erases (h.run c).run (h'.run c).run :=
  (hh.before c).bind fun _ => erases_pure _

theorem erases_runAll {hooks : List (Hook (Recorded ι σ))} {hooks' : List (Hook (StateM σ))}
    (h : List.Forall₂ Hook.Erases hooks hooks') (c : Context) :
    Erases (Hook.runAll hooks c).run (Hook.runAll hooks' c).run := by
  unfold Hook.runAll
  induction h generalizing c with
  | nil => exact erases_pure _
  | cons hh _ ih => exact (erases_run hh c).run_bind ih

theorem erases_chain {hooks : List (Hook (Recorded ι σ))} {hooks' : List (Hook (StateM σ))}
    (h : List.Forall₂ Hook.Erases hooks hooks') :
    (Hook.chain hooks).Erases (Hook.chain hooks') where
  before c := (erases_runAll h c).bind fun r => by
    cases r with
    | ok d => exact erases_pure _
    | error reason => exact erases_pure _
  after c nanoseconds o := by
    change Erases (hooks.forM _) (hooks'.forM _)
    induction h with
    | nil => exact erases_pure _
    | cons hh _ ih => exact (hh.after c nanoseconds o).bind fun _ => ih

mutual

/-- Without its record, the hook is the plain one. -/
theorem erases_toRecordedHook : (T : Grouping ι) → (T.toRecordedHook H).Erases (T.toHook H)
  | single i => Hook.erases_recorded i (H i)
  | chain parts => erases_chain (erases_toHooks parts)

theorem erases_toHooks : (parts : List (Grouping ι)) →
    List.Forall₂ Hook.Erases (toHooks (fun i => (H i).recorded i) parts) (toHooks H parts)
  | [] => .nil
  | T :: rest => .cons (erases_toRecordedHook T) (erases_toHooks rest)

end

end Grouping

/-! ## What the parts of a session see -/

def Event.WellClassified : Event ι → Prop
  | before _ c _ => c.WellClassified
  | start c => c.WellClassified
  | query _ _ _ => True
  | execute _ _ _ => True
  | quoteLiteral _ _ => True
  | lastInsertId _ => True
  | reading _ => True
  | after _ c _ _ => c.WellClassified
  | complete c _ _ => c.WellClassified
  | slow c _ => c.WellClassified

namespace Session

variable (s : Session (StateM σ)) (T : Grouping ι) (H : ι → Hook (StateM σ))

variable {c : Context} {d : Demand}

end Session

end KeyedQuery
