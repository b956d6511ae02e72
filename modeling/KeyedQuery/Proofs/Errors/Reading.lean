import KeyedQuery.Proofs.Condition.Tree
import KeyedQuery.Proofs.Entries
import KeyedQuery.Proofs.Value.Finite
import KeyedQuery.Query.Basic
import KeyedQuery.Write.Description

/-!
# Errors of reading

A description read from JSON is refused as malformed, for whatever reason it is refused. What is
read holds finite numbers only, in its conditions, in the lists of values that it orders by, in its
rows and in its assignments.
-/

namespace KeyedQuery

open Result (Ends)

/-! ## Conditions -/

def LeafKey.AllFinite (leaves : List (String × Value)) : Prop :=
  ∀ leaf ∈ leaves, leaf.2.allFinite = true

theorem LeafKey.allFinite_nil : AllFinite [] := fun _ h => nomatch h

theorem LeafKey.allFinite_singleton {key : String} {v : Value} (h : v.allFinite = true) :
    AllFinite [(key, v)] :=
  List.forall_mem_singleton.2 h

theorem LeafKey.allFinite_append_iff {leaves leaves' : List (String × Value)} :
    AllFinite (leaves ++ leaves') ↔ AllFinite leaves ∧ AllFinite leaves' :=
  List.forall_mem_append

namespace Node

open LeafKey

mutual

theorem ends_ofJson (key : String) : ∀ j : Json,
    Ends (·.isMalformed = true) (fun node => AllFinite (node.leaves key)) (ofJson key j)
  | .null => allFinite_singleton rfl
  | .bool _ => allFinite_singleton rfl
  | .num n => allFinite_singleton (Value.allFinite_ofNumber n)
  | .str _ => allFinite_singleton rfl
  | .obj fields => (ends_ofFields fields).map fun _ h => h
  | .arr items => by
      unfold ofJson
      split
      · exact (ends_ofItems items).map fun _ h => h
      · exact (Value.ends_ofJson (.arr items)).map fun _ h => allFinite_singleton h

theorem ends_ofFields : ∀ fields : List (String × Json),
    Ends (·.isMalformed = true) (fun entries => AllFinite (Conditions.leaves entries))
      (ofFields fields)
  | [] => allFinite_nil
  | (key, j) :: rest =>
      (ends_ofJson key j).bind fun _ hnode => (ends_ofFields rest).bind fun _ hrest =>
        allFinite_append_iff.2 ⟨hnode, hrest⟩

theorem ends_ofItems : ∀ items : List Json,
    Ends (·.isMalformed = true) (fun groups => AllFinite (Conditions.leavesOfGroups groups))
      (ofItems items)
  | [] => allFinite_nil
  | .obj fields :: rest =>
      (ends_ofFields fields).bind fun _ hfields => (ends_ofItems rest).bind fun _ hrest =>
        allFinite_append_iff.2 ⟨hfields, hrest⟩
  | .null :: _ => rfl
  | .bool _ :: _ => rfl
  | .num _ :: _ => rfl
  | .str _ :: _ => rfl
  | .arr _ :: _ => rfl

end

end Node

theorem Conditions.ends_ofJson (j : Json) :
    Ends (·.isMalformed = true) (fun m => LeafKey.AllFinite m.leaves) (ofJson j) := by
  cases j with
  | obj fields => exact Node.ends_ofFields fields
  | _ => rfl

/-! ## Order, limit and search -/

def OrderItem.AllFinite : OrderItem → Prop
  | column _ _ => True
  | field _ values => Value.eachFinite values = true

namespace OrderItem

theorem ends_parse (text : String) : Ends (·.isMalformed = true) AllFinite (parse text) := by
  unfold parse
  simp only
  split
  · split
    · rfl
    · trivial
  · rfl

theorem ends_ofField (name : String) (j : Json) :
    Ends (·.isMalformed = true) AllFinite (ofField name j) := by
  unfold ofField
  split
  · split
    · trivial
    · rfl
  · exact (Value.ends_ofJsonAll _).map fun _ h => h
  · rfl

theorem ends_ofItem (j : Json) : Ends (·.isMalformed = true) AllFinite (ofItem j) := by
  cases j with
  | str text => exact ends_parse text
  | _ => rfl

end OrderItem

theorem Order.ends_ofJson (j : Json) : Ends (·.isMalformed = true)
    (fun order : Order => ∀ item ∈ order, item.AllFinite) (ofJson j) := by
  cases j with
  | str text => exact (OrderItem.ends_parse text).map fun _ h => List.forall_mem_singleton.2 h
  | arr items => exact Result.ends_mapM fun item _ => OrderItem.ends_ofItem item
  | obj fields => exact Result.ends_mapM fun f _ => OrderItem.ends_ofField f.1 f.2
  | _ => rfl

theorem Limit.ends_ofJson (j : Json) :
    Ends (·.isMalformed = true) (fun _ => True) (ofJson j) := by
  unfold ofJson
  split
  · trivial
  · split
    · trivial
    · rfl

theorem FullText.ends_ofJson (j : Json) :
    Ends (·.isMalformed = true) (fun _ => True) (ofJson j) := by
  unfold ofJson
  split
  · rfl
  · rfl
  · refine Ends.bind (P := fun _ => True) ?_ fun _ _ => trivial
    refine (Result.ends_mapM (R := fun _ => True) fun item _ => ?_).imp (fun _ h => h)
      fun _ _ => trivial
    cases item with
    | str name => trivial
    | _ => rfl

/-! ## Clauses -/

structure Clauses.AllFinite (c : Clauses) : Prop where
  conditions : LeafKey.AllFinite c.conditions.leaves
  having : ∀ m ∈ c.having, LeafKey.AllFinite m.leaves
  order : ∀ order ∈ c.order, ∀ item ∈ order, item.AllFinite

namespace Clauses

theorem ends_readGroup (j : Json) :
    Ends (·.isMalformed = true) (fun _ => True) (readGroup j) := by
  cases j with
  | str name => trivial
  | arr items =>
      refine (Result.ends_mapM (R := fun _ => True) fun item _ => ?_).imp (fun _ h => h)
        fun _ _ => trivial
      cases item with
      | str name => trivial
      | _ => rfl
  | _ => rfl

theorem ends_fillGroup (group : List String) (fields : Entries Json) :
    Ends (·.isMalformed = true) (fun _ => True) (fillGroup group fields) := by
  unfold fillGroup
  split
  · exact ends_readGroup _
  · trivial

theorem ends_fill {α : Type} {P : α → Prop} {part : Option α} {fields : Entries Json}
    {key : String} {read : Json → Result α} (hpart : ∀ v ∈ part, P v)
    (hread : ∀ j, Ends (·.isMalformed = true) P (read j)) :
    Ends (·.isMalformed = true) (fun part => ∀ v ∈ part, P v) (fill part fields key read) := by
  unfold fill
  split
  · exact hpart
  · exact (hread _).map fun v hv w hw => Option.some.inj hw ▸ hv
  · exact fun v hv => nomatch hv

/-- Clauses that are filled from fields hold finite numbers as before. -/
theorem ends_fillFrom {c : Clauses} (h : c.AllFinite) (fields : Entries Json) :
    Ends (·.isMalformed = true) AllFinite (c.fillFrom fields) :=
  (ends_fillGroup c.group fields).bind fun _ _ =>
    (ends_fill h.order Order.ends_ofJson).bind fun _ horder =>
      (ends_fill h.having Conditions.ends_ofJson).bind fun _ hhaving =>
        (ends_fill (fun _ _ => trivial) Limit.ends_ofJson).bind fun _ _ =>
          (ends_fill (fun _ _ => trivial) FullText.ends_ofJson).bind fun _ _ =>
            ⟨h.conditions, hhaving, horder⟩

theorem allFinite_of_conditions {conditions : Conditions}
    (h : LeafKey.AllFinite conditions.leaves) : AllFinite { conditions } :=
  ⟨h, by simp, by simp⟩

theorem allFinite_empty : AllFinite {} := allFinite_of_conditions LeafKey.allFinite_nil

theorem ends_ofJson (j : Json) : Ends (·.isMalformed = true) AllFinite (ofJson j) := by
  cases j with
  | obj fields =>
      exact (Node.ends_ofFields _).bind fun _ h => ends_fillFrom (allFinite_of_conditions h) fields
  | _ => rfl

theorem ends_ofFields (fields : Entries Json) :
    Ends (·.isMalformed = true) AllFinite (ofFields fields) := by
  unfold ofFields
  split
  · exact (ends_ofJson _).bind fun _ h => ends_fillFrom h fields
  · exact ends_fillFrom allFinite_empty fields

end Clauses

/-! ## Queries -/

theorem Column.ends_ofField (name : String) (j : Json) :
    Ends (·.isMalformed = true) (fun _ => True) (ofField name j) := by
  unfold ofField
  split
  · rfl
  · trivial
  · rfl

theorem Projection.ends_ofJson (j : Json) :
    Ends (·.isMalformed = true) (fun _ => True) (ofJson j) := by
  have hfields : ∀ fields : Entries Json, Ends (·.isMalformed = true)
      (fun columns : List Column => ∀ c ∈ columns, True)
      (fields.mapM fun f => Column.ofField f.1 f.2) :=
    fun fields => Result.ends_mapM fun f _ => Column.ends_ofField f.1 f.2
  cases j with
  | str text => trivial
  | obj fields => exact (hfields fields).map fun _ _ => trivial
  | arr items =>
      refine (Result.ends_mapM (R := fun _ => True) fun item _ => ?_).map fun _ _ => trivial
      cases item with
      | str text => trivial
      | obj fields => exact (hfields fields).imp (fun _ h => h) fun _ _ => trivial
      | _ => rfl
  | _ => rfl

theorem Relation.ends_ofJson (j : Json) :
    Ends (·.isMalformed = true) (fun _ => True) (ofJson j) := by
  have hcolumn : ∀ j, Ends (·.isMalformed = true) (fun _ => True) (readColumn j) := by
    intro j
    cases j with
    | str name => trivial
    | _ => rfl
  cases j with
  | str name => trivial
  | arr items => exact (Result.ends_mapM fun item _ => hcolumn item).map fun _ _ => trivial
  | obj fields =>
      refine (Result.ends_mapM (R := fun _ => True) fun f _ => ?_).bind fun _ _ => trivial
      exact (hcolumn f.2).bind fun _ _ => trivial
  | _ => rfl

theorem Query.ends_readJoins (j : Json) :
    Ends (·.isMalformed = true) (fun _ => True) (readJoins j) := by
  cases j with
  | obj fields =>
      refine (Result.ends_mapM (R := fun _ => True) fun f _ => ?_).imp (fun _ h => h)
        fun _ _ => trivial
      refine (Relation.ends_ofJson f.2).bind fun relation _ => ?_
      unfold Join.ofKey
      split
      · trivial
      · rfl
  | _ => rfl

theorem Reduction.ends_ofJson (j : Json) :
    Ends (·.isMalformed = true) (fun _ => True) (ofJson j) := by
  unfold ofJson
  split
  · split
    · trivial
    · split
      · trivial
      · rfl
  · trivial
  · split
    · trivial
    · rfl
  · rfl

namespace Query

theorem ends_readPart {α : Type} {read : Json → Result α} (part : Option Json) (absent : α)
    (h : ∀ j, Ends (·.isMalformed = true) (fun _ => True) (read j)) :
    Ends (·.isMalformed = true) (fun _ => True) (readPart part absent read) := by
  cases part with
  | none => trivial
  | some j => exact h j

theorem ends_ofFields (fields : Entries Json) :
    Ends (·.isMalformed = true) (fun q : Query => q.clauses.AllFinite) (ofFields fields) := by
  unfold ofFields
  cases (Entries.keys fields).find? fun k => k ∉ jsonKeys ∧ k ∉ Clauses.jsonKeys with
  | some key => rfl
  | none =>
      cases (firstOf? fields ["TABLE", "FROM", "SELECT"]).bind Json.asString? with
      | none => rfl
      | some table =>
          refine Ends.bind (P := fun _ => True) (x := .ok table) trivial fun table _ => ?_
          refine (ends_readPart _ _ Projection.ends_ofJson).bind fun _ _ => ?_
          refine (ends_readPart _ _ ends_readJoins).bind fun _ _ => ?_
          refine (Clauses.ends_ofFields fields).bind fun _ h => ?_
          refine (ends_readPart _ _ fun j => ?_).bind fun _ _ => h
          exact (Reduction.ends_ofJson j).map fun _ _ => trivial

/-- A query is refused as malformed, or read as one with finite numbers only. -/
theorem ends_ofJson (j : Json) :
    Ends (·.isMalformed = true) (fun q : Query => q.clauses.AllFinite) (ofJson j) := by
  cases j with
  | str table => exact Clauses.allFinite_empty
  | obj fields => exact ends_ofFields fields
  | _ => rfl

end Query

/-! ## Writes -/

namespace Write

theorem ends_readFields (kind : Kind) (known : List String) (j : Json) :
    Ends (·.isMalformed = true) (fun _ => True) (readFields kind known j) := by
  unfold readFields
  split
  · split
    · rfl
    · trivial
  · rfl

theorem ends_readTable (kind : Kind) (fields : Entries Json) :
    Ends (·.isMalformed = true) (fun _ => True) (readTable kind fields) := by
  unfold readTable
  split
  · trivial
  · rfl

end Write

def Record.AllFinite (r : Record) : Prop := ∀ e ∈ r.entries, e.2.allFinite = true

theorem Record.ends_ofJson (j : Json) : Ends (·.isMalformed = true) AllFinite (ofJson j) := by
  cases j with
  | obj fields =>
      refine (Result.ends_mapM (R := fun e => e.2.allFinite = true) fun f _ => ?_).bind ?_
      · exact (Value.ends_ofJson f.2).bind fun _ h => h
      · exact fun pairs hpairs e he => hpairs e (Entries.mem_of_mem_ofList he)
  | _ => rfl

namespace Insertion

theorem ends_readRows (j : Option Json) : Ends (·.isMalformed = true)
    (fun rows : List Record => ∀ r ∈ rows, r.AllFinite) (readRows j) := by
  unfold readRows
  split
  · exact Result.ends_mapM fun item _ => Record.ends_ofJson item
  · exact (Record.ends_ofJson _).map fun _ h => List.forall_mem_singleton.2 h
  · rfl
  · rfl

theorem ends_ofJson (j : Json) : Ends (·.isMalformed = true)
    (fun i : Insertion => ∀ r ∈ i.rows, r.AllFinite) (ofJson j) :=
  (Write.ends_readFields .insert jsonKeys j).bind fun fields _ =>
    (ends_readRows _).bind fun _ hrows =>
      (Write.ends_readTable .insert fields).bind fun _ _ => hrows

end Insertion

theorem Update.ends_ofJson (j : Json) : Ends (·.isMalformed = true)
    (fun u : Update => u.assignments.AllFinite ∧ u.clauses.AllFinite) (ofJson j) := by
  refine (Write.ends_readFields .update jsonKeys j).bind fun fields _ => ?_
  split
  · rfl
  · exact (Write.ends_readTable .update fields).bind fun _ _ =>
      (Record.ends_ofJson _).bind fun _ hassignments =>
        (Clauses.ends_ofFields fields).bind fun _ hclauses => ⟨hassignments, hclauses⟩

theorem Deletion.ends_ofJson (j : Json) : Ends (·.isMalformed = true)
    (fun d : Deletion => d.clauses.AllFinite) (ofJson j) :=
  (Write.ends_readFields .delete jsonKeys j).bind fun fields _ =>
    (Write.ends_readTable .delete fields).bind fun _ _ =>
      (Clauses.ends_ofFields fields).bind fun _ h => h

end KeyedQuery
