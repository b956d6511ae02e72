import KeyedQuery.Builder
import KeyedQuery.Proofs.Condition.Predicate
import KeyedQuery.Proofs.Errors.Reading

/-!
# Errors of statements

A statement is refused because its description is malformed, because an operator has no meaning for
a value, or because the dialect lacks a construct. It also fails where a number has no literal,
which is so only if the number is not finite. No such number is read from JSON, so whatever is read
either has a statement or is refused.
-/

namespace KeyedQuery

open Result (Ends)

/-- The errors by which a description is refused. -/
def Error.IsRefusal (e : Error) : Prop :=
  e.isMalformed = true ∨ e.isUnsupportedOperator = true ∨ e.isDialectMismatch = true

namespace Result

variable {α β : Type} {x : Result α}

/-- Whatever fails in the computation is a refusal. -/
def OnlyRefuses (x : Result α) : Prop := ∀ e, x = .error e → e.IsRefusal

theorem onlyRefuses_iff_ends :
    OnlyRefuses x ↔ Ends Error.IsRefusal (fun _ => True) x := by
  cases x with
  | error e => exact ⟨fun h => h e rfl, fun h _ he => Except.error.inj he ▸ h⟩
  | ok a => exact ⟨fun _ => trivial, fun _ _ he => nomatch he⟩

theorem onlyRefuses_ok (a : α) : OnlyRefuses (.ok a) := fun _ he => nomatch he

theorem onlyRefuses_error {e : Error} (h : e.IsRefusal) : OnlyRefuses (.error e : Result α) :=
  onlyRefuses_iff_ends.2 h

theorem onlyRefuses_fault (f : Fault) : OnlyRefuses (fault f : Result α) :=
  onlyRefuses_error (.inl rfl)

theorem onlyRefuses_unsupported (k : LeafKey) (v : Value) :
    OnlyRefuses (.error (k.unsupported v) : Result α) :=
  onlyRefuses_error (.inr (.inl rfl))

theorem onlyRefuses_lacks (d : Dialect) (f : Feature) : OnlyRefuses (d.lacks f : Result α) :=
  onlyRefuses_error (.inr (.inr rfl))

theorem OnlyRefuses.bind {f : α → Result β} (h : OnlyRefuses x) (hf : ∀ a, OnlyRefuses (f a)) :
    OnlyRefuses (x >>= f) :=
  onlyRefuses_iff_ends.2
    ((onlyRefuses_iff_ends.1 h).bind fun a _ => onlyRefuses_iff_ends.1 (hf a))

theorem OnlyRefuses.map {f : α → β} (h : OnlyRefuses x) : OnlyRefuses (x.map f) :=
  onlyRefuses_iff_ends.2 ((onlyRefuses_iff_ends.1 h).map fun _ _ => trivial)

theorem onlyRefuses_mapM {f : α → Result β} {xs : List α} (h : ∀ a ∈ xs, OnlyRefuses (f a)) :
    OnlyRefuses (xs.mapM f) :=
  onlyRefuses_iff_ends.2
    ((ends_mapM fun a ha => onlyRefuses_iff_ends.1 (h a ha)).imp (fun _ he => he)
      fun _ _ => trivial)

end Result

open Result

variable {s : Settings}

/-! ## Values -/

theorem Value.onlyRefuses_floatSql {x : Binary64} (h : x.isFinite = true) :
    OnlyRefuses (floatSql x) := by
  rw [floatSql, if_pos h]
  exact onlyRefuses_ok _

theorem Value.onlyRefuses_numericSql? {v : Value} (h : v.allFinite = true) {number : Result String}
    (hnumber : v.numericSql? = some number) : OnlyRefuses number := by
  cases v with
  | int n => exact Option.some.inj hnumber ▸ onlyRefuses_ok _
  | float x => exact Option.some.inj hnumber ▸ onlyRefuses_floatSql h
  | _ => simp [numericSql?] at hnumber

namespace Literal

theorem onlyRefuses_ofValue (raw : Bool) {v : Value} (h : v.allFinite = true) :
    OnlyRefuses (ofValue raw v) := by
  cases v with
  | float x => exact (Value.onlyRefuses_floatSql h).map
  | _ => exact onlyRefuses_ok _

theorem onlyRefuses_ofScalars {values : List Value} (h : ∀ v ∈ values, v.allFinite = true) :
    OnlyRefuses (ofScalars values) :=
  (onlyRefuses_mapM fun v hv => onlyRefuses_ofValue false (h v hv)).bind fun _ => onlyRefuses_ok _

end Literal

/-! ## Conditions -/

theorem Key.onlyRefuses_parse {α : Type} (read? : String → Option α) (key : String) :
    OnlyRefuses (parse read? key) := by
  unfold parse
  simp only
  split
  · exact onlyRefuses_ok _
  · exact onlyRefuses_fault _

namespace LeafKey

variable {k : LeafKey} {column : Fragment} {v : Value}

theorem onlyRefuses_inferred {negated : Bool} (h : v.allFinite = true) :
    OnlyRefuses (inferred column k negated v) := by
  unfold inferred
  split
  · exact onlyRefuses_ok _
  · next items =>
      split
      · exact onlyRefuses_unsupported k _
      · unfold membership
        split
        · exact onlyRefuses_ok _
        · exact (Literal.onlyRefuses_ofScalars (Value.eachFinite_iff.1 h)).bind fun _ =>
            onlyRefuses_ok _
  · exact (Literal.onlyRefuses_ofValue k.raw h).map

theorem onlyRefuses_range {negated : Bool} {low high : Value}
    (h : (Value.list [low, high]).allFinite = true) :
    OnlyRefuses (range column negated low high) := by
  have hbounds := Value.eachFinite_iff.1 h
  exact (Literal.onlyRefuses_ofValue false (hbounds low (by simp))).bind fun _ =>
    (Literal.onlyRefuses_ofValue false (hbounds high (by simp))).bind fun _ => onlyRefuses_ok _

theorem allFinite_searched (h : v.allFinite = true) : ∀ w ∈ searched v, w.allFinite = true := by
  cases v with
  | list items => exact Value.eachFinite_iff.1 h
  | _ => exact List.forall_mem_singleton.2 h

theorem onlyRefuses_terms (h : v.allFinite = true) : OnlyRefuses (terms k v) := by
  refine onlyRefuses_mapM fun w hw => ?_
  have hfinite := allFinite_searched h w hw
  cases hterm : term? w with
  | none => exact onlyRefuses_unsupported k v
  | some t =>
      rw [Option.getD_some]
      unfold term? at hterm
      split at hterm
      · exact Option.some.inj hterm ▸ onlyRefuses_ok _
      · exact Value.onlyRefuses_numericSql? hfinite hterm

theorem onlyRefuses_comparand? (h : v.allFinite = true) {value : Result Piece}
    (hvalue : comparand? k.raw v = some value) : OnlyRefuses value := by
  unfold comparand? at hvalue
  split at hvalue
  · exact Option.some.inj hvalue ▸ onlyRefuses_ok _
  · obtain ⟨number, hnumber, rfl⟩ := Option.map_eq_some_iff.1 hvalue
    exact (Value.onlyRefuses_numericSql? h hnumber).map

/-- A condition on a column with finite numbers only is compiled or refused. -/
theorem onlyRefuses_toSql (h : v.allFinite = true) : OnlyRefuses (k.toSql s v) := by
  unfold toSql
  simp only
  split
  · exact onlyRefuses_inferred h
  · exact onlyRefuses_inferred h
  · split
    · split
      · exact onlyRefuses_range h
      · exact onlyRefuses_unsupported k _
    · exact onlyRefuses_unsupported k _
  · split
    · exact onlyRefuses_unsupported k v
    · exact (onlyRefuses_terms h).map
  · split
    · next value hvalue => exact (onlyRefuses_comparand? h hvalue).map
    · exact onlyRefuses_unsupported k v

end LeafKey

theorem Conditions.onlyRefuses_nonempty (key : String) {α : Type} (entries : List α) :
    OnlyRefuses (nonempty key entries) := by
  cases entries with
  | nil => exact onlyRefuses_fault _
  | cons _ _ => exact onlyRefuses_ok _

open LeafKey (AllFinite allFinite_append_iff)

mutual

theorem Node.onlyRefuses_toSql (outer : Conjunctor) (key : String) : ∀ node : Node,
    AllFinite (node.leaves key) → OnlyRefuses (node.toSql s outer key)
  | .value v, h => by
      unfold Node.toSql
      split
      · exact onlyRefuses_fault _
      · exact (Key.onlyRefuses_parse _ key).bind fun k =>
          LeafKey.onlyRefuses_toSql (h (key, v) List.mem_cons_self)
  | .group entries, h => by
      unfold Node.toSql
      split
      · next g _ =>
          exact (Conditions.onlyRefuses_nonempty key entries).bind fun _ =>
            (Conditions.onlyRefuses_compileEach g.conjunctor entries h).bind fun _ =>
              onlyRefuses_ok _
      · exact onlyRefuses_fault _
  | .siblings groups, h => by
      unfold Node.toSql
      split
      · next g _ =>
          exact (Conditions.onlyRefuses_nonempty key groups).bind fun _ =>
            (Conditions.onlyRefuses_compileGroups g.conjunctor key groups h).bind fun _ =>
              onlyRefuses_ok _
      · exact onlyRefuses_fault _

theorem Conditions.onlyRefuses_compileEach (outer : Conjunctor) :
    ∀ entries : List (String × Node), AllFinite (Conditions.leaves entries) →
      OnlyRefuses (Conditions.compileEach s outer entries)
  | [], _ => onlyRefuses_ok []
  | (key, node) :: rest, h =>
      have ⟨hnode, hrest⟩ := allFinite_append_iff.1 h
      (Node.onlyRefuses_toSql outer key node hnode).bind fun _ =>
        (Conditions.onlyRefuses_compileEach outer rest hrest).bind fun _ => onlyRefuses_ok _

theorem Conditions.onlyRefuses_compileGroups (inner : Conjunctor) (key : String) :
    ∀ groups : List (List (String × Node)), AllFinite (Conditions.leavesOfGroups groups) →
      OnlyRefuses (Conditions.compileGroups s inner key groups)
  | [], _ => onlyRefuses_ok []
  | entries :: rest, h =>
      have ⟨hentries, hrest⟩ := allFinite_append_iff.1 h
      (Conditions.onlyRefuses_nonempty key entries).bind fun _ =>
        (Conditions.onlyRefuses_compileEach inner entries hentries).bind fun _ =>
          (Conditions.onlyRefuses_compileGroups inner key rest hrest).bind fun _ =>
            onlyRefuses_ok _

end

namespace Conditions

theorem onlyRefuses_toSql {c : Conjunctor} {m : Conditions} (h : AllFinite m.leaves) :
    OnlyRefuses (m.toSql s c) :=
  (onlyRefuses_compileEach c m h).map

theorem allFinite_of_mem_groups {groups : List Conditions} (h : AllFinite (leavesOfGroups groups)) :
    ∀ m ∈ groups, AllFinite m.leaves := by
  induction groups with
  | nil => simp
  | cons m rest ih =>
      rw [leavesOfGroups, allFinite_append_iff] at h
      exact List.forall_mem_cons.2 ⟨h.1, ih h.2⟩

theorem onlyRefuses_topGroup (c : Conjunctor) {node : Node} (h : AllFinite (node.leaves "")) :
    OnlyRefuses (topGroup s c node) := by
  unfold topGroup
  split
  · exact onlyRefuses_toSql h
  · exact (onlyRefuses_mapM fun m hm => onlyRefuses_toSql (allFinite_of_mem_groups h m hm)).bind
      fun _ => onlyRefuses_ok _
  · exact onlyRefuses_fault _

theorem onlyRefuses_predicate {m : Conditions} (h : AllFinite m.leaves) :
    OnlyRefuses (m.predicate s) := by
  rcases eq_or_ne m [] with rfl | hne
  · exact onlyRefuses_ok []
  · -- A group may take the place of all conditions, but its leaves are among theirs.
    rw [predicate_eq_topGroup hne]
    exact onlyRefuses_topGroup _ fun leaf hleaf => h leaf ((leaves_top_subset m "").2 hleaf)

end Conditions

/-! ## Clauses -/

theorem OrderItem.onlyRefuses_toSql {item : OrderItem} (h : item.AllFinite) :
    OnlyRefuses (item.toSql s) := by
  unfold toSql
  split
  · exact onlyRefuses_ok _
  · exact onlyRefuses_ok _
  · split
    · exact onlyRefuses_lacks _ _
    · split
      · exact onlyRefuses_fault _
      · exact (Literal.onlyRefuses_ofScalars (Value.eachFinite_iff.1 h)).bind fun _ =>
          onlyRefuses_ok _

theorem Order.onlyRefuses_toSql {order : Order} (h : ∀ item ∈ order, item.AllFinite) :
    OnlyRefuses (toSql s order) := by
  unfold toSql
  split
  · exact onlyRefuses_fault _
  · exact (onlyRefuses_mapM fun item hitem => OrderItem.onlyRefuses_toSql (h item hitem)).map

theorem Limit.onlyRefuses_toSql (d : Dialect) (ordered : Bool) (limit : Limit) :
    OnlyRefuses (limit.toSql d ordered) := by
  unfold toSql
  split <;> try exact onlyRefuses_ok _
  · split
    · exact onlyRefuses_ok _
    · exact onlyRefuses_lacks _ _
  · split
    · exact onlyRefuses_ok _
    · exact onlyRefuses_lacks _ _
  · exact onlyRefuses_lacks _ _

theorem FullText.onlyRefuses_toSql (f : FullText) : OnlyRefuses (f.toSql s) := by
  unfold toSql
  split
  · exact onlyRefuses_lacks _ _
  · split
    · exact onlyRefuses_fault _
    · exact onlyRefuses_ok _

namespace Clauses

variable {c : Clauses}

theorem onlyRefuses_filterSql (h : c.AllFinite) : OnlyRefuses (c.filterSql s) := by
  refine (Conditions.onlyRefuses_predicate h.conditions).bind fun filter => ?_
  split
  · exact onlyRefuses_ok _
  · next f _ => exact f.onlyRefuses_toSql.bind fun _ => onlyRefuses_ok _

theorem onlyRefuses_havingSql (h : c.AllFinite) : OnlyRefuses (c.havingSql s) := by
  unfold havingSql
  split
  · exact onlyRefuses_ok _
  · next m hm => exact (Conditions.onlyRefuses_predicate (h.having m hm)).map

theorem onlyRefuses_orderSql (h : c.AllFinite) : OnlyRefuses (c.orderSql s) := by
  unfold orderSql
  split
  · exact onlyRefuses_ok _
  · next order horder => exact (Order.onlyRefuses_toSql (h.order order horder)).map

theorem onlyRefuses_limitSql : OnlyRefuses (c.limitSql s) := by
  unfold limitSql
  split
  · exact onlyRefuses_ok _
  · exact (Limit.onlyRefuses_toSql _ _ _).map

theorem onlyRefuses_toSql (h : c.AllFinite) : OnlyRefuses (c.toSql s) :=
  (onlyRefuses_filterSql h).bind fun _ => (onlyRefuses_havingSql h).bind fun _ =>
    (onlyRefuses_orderSql h).bind fun _ => onlyRefuses_limitSql.bind fun _ => onlyRefuses_ok _

end Clauses

/-! ## Queries -/

theorem Settings.onlyRefuses_checkedTable (s : Settings) (name : String) :
    OnlyRefuses (s.checkedTable name) := by
  unfold checkedTable
  simp only
  split
  · exact onlyRefuses_fault _
  · exact onlyRefuses_ok _

theorem MainTable.onlyRefuses_ofName (s : Settings) (table : String) :
    OnlyRefuses (ofName s table) := by
  unfold ofName
  split <;> exact (s.onlyRefuses_checkedTable _).bind fun _ => onlyRefuses_ok _

theorem Projection.onlyRefuses_toSql (p : Projection) : OnlyRefuses (p.toSql s) := by
  unfold toSql
  split
  · exact onlyRefuses_ok _
  · exact onlyRefuses_fault _
  · exact onlyRefuses_ok _

theorem Join.onlyRefuses_toSql (main : Fragment) (j : Join) : OnlyRefuses (j.toSql s main) := by
  refine (s.onlyRefuses_checkedTable j.table).bind fun _ => ?_
  refine OnlyRefuses.bind ?_ fun _ => onlyRefuses_ok _
  unfold relationSql
  split
  · exact onlyRefuses_fault _
  · exact onlyRefuses_fault _
  · exact onlyRefuses_ok _
  · exact onlyRefuses_ok _

namespace Query

variable {q : Query}

theorem onlyRefuses_projectionSql : OnlyRefuses (q.projectionSql s) := by
  unfold projectionSql
  split
  · exact onlyRefuses_ok _
  · exact (q.projection.onlyRefuses_toSql).map
  · exact q.projection.onlyRefuses_toSql

theorem onlyRefuses_selectSql (h : q.clauses.AllFinite) : OnlyRefuses (q.selectSql s) :=
  (MainTable.onlyRefuses_ofName s q.table).bind fun main =>
    onlyRefuses_projectionSql.bind fun _ =>
      (onlyRefuses_mapM fun j _ => j.onlyRefuses_toSql main.reference).bind fun _ =>
        (Clauses.onlyRefuses_toSql h).bind fun _ => onlyRefuses_ok _

theorem onlyRefuses_getSql (h : q.clauses.AllFinite) : OnlyRefuses (q.getSql s) := by
  have hlimit : ∀ limit, ({ q.clauses with limit } : Clauses).AllFinite :=
    fun _ => ⟨h.conditions, h.having, h.order⟩
  unfold getSql
  split
  · exact (Limit.onlyRefuses_toSql _ _ _).bind fun _ =>
      (onlyRefuses_selectSql (hlimit none)).bind fun _ => onlyRefuses_ok _
  · exact onlyRefuses_selectSql (hlimit (some (.count 1)))

theorem onlyRefuses_hasSql (h : q.clauses.AllFinite) : OnlyRefuses (q.hasSql s) :=
  (onlyRefuses_selectSql (q := { q with projection := .all, reduction := some .existence })
    h).bind fun _ => onlyRefuses_ok _

end Query

/-! ## Writes -/

namespace Record

variable {r : Record}

theorem onlyRefuses_literal (key : String) {v : Value} (h : v.allFinite = true) :
    OnlyRefuses (literal key v) :=
  (Literal.onlyRefuses_ofValue _ h).map

theorem onlyRefuses_valuesSql (h : r.AllFinite) : OnlyRefuses r.valuesSql :=
  (onlyRefuses_mapM fun e he => onlyRefuses_literal e.1 (h e he)).map

theorem onlyRefuses_tupleSql (h : r.AllFinite) (keys : List String) (row : Nat) :
    OnlyRefuses (r.tupleSql keys row) := by
  unfold tupleSql
  split
  · refine (onlyRefuses_mapM fun key _ => ?_).map
    unfold valueAt
    split
    · next v hv => exact onlyRefuses_literal key (h (key, v) (Entries.mem_of_get?_eq_some hv))
    · exact onlyRefuses_fault _
  · exact onlyRefuses_fault _

theorem onlyRefuses_assignmentsSql (h : r.AllFinite) : OnlyRefuses (r.assignmentsSql s) := by
  refine onlyRefuses_mapM fun e he => ?_
  refine (Key.onlyRefuses_parse _ e.1).bind fun k => ?_
  unfold AssignmentKey.toSql
  simp only
  split
  · exact (Literal.onlyRefuses_ofValue _ (h e he)).map
  · next number hnumber => exact (Value.onlyRefuses_numericSql? (h e he) hnumber).map
  · exact onlyRefuses_error (.inr (.inl rfl))

end Record

namespace Insertion

variable {i : Insertion}

theorem onlyRefuses_headSql : OnlyRefuses (i.headSql s) := by
  refine (s.onlyRefuses_checkedTable i.table).bind fun _ => ?_
  split
  · exact onlyRefuses_fault _
  · split
    · exact onlyRefuses_lacks _ _
    · exact onlyRefuses_ok _

theorem onlyRefuses_eachSql (h : ∀ r ∈ i.rows, r.AllFinite) : OnlyRefuses (i.eachSql s) := by
  refine onlyRefuses_headSql.bind fun head => onlyRefuses_mapM fun r hr => ?_
  unfold rowSql
  split
  · exact onlyRefuses_fault _
  · exact (Record.onlyRefuses_valuesSql (h r hr)).bind fun _ => onlyRefuses_ok _

theorem onlyRefuses_tuplesSql (keys : List String) (row : Nat) {rows : List Record}
    (h : ∀ r ∈ rows, r.AllFinite) : OnlyRefuses (tuplesSql keys row rows) := by
  induction rows generalizing row with
  | nil => exact onlyRefuses_ok []
  | cons r rest ih =>
      obtain ⟨hr, hrest⟩ := List.forall_mem_cons.1 h
      exact (Record.onlyRefuses_tupleSql hr keys row).bind fun _ =>
        (ih (row + 1) hrest).bind fun _ => onlyRefuses_ok _

theorem onlyRefuses_togetherSql (h : ∀ r ∈ i.rows, r.AllFinite) :
    OnlyRefuses (i.togetherSql s) := by
  refine onlyRefuses_headSql.bind fun head => ?_
  simp only
  split
  · exact onlyRefuses_fault _
  · exact (onlyRefuses_tuplesSql _ 0 h).bind fun _ => onlyRefuses_ok _

end Insertion

theorem Update.onlyRefuses_toSql {u : Update} (h : u.assignments.AllFinite ∧ u.clauses.AllFinite) :
    OnlyRefuses (u.toSql s) := by
  refine (s.onlyRefuses_checkedTable u.table).bind fun _ => ?_
  split
  · exact onlyRefuses_fault _
  · exact (Record.onlyRefuses_assignmentsSql h.1).bind fun _ =>
      (Clauses.onlyRefuses_toSql h.2).map

theorem Deletion.onlyRefuses_toSql {d : Deletion} (h : d.clauses.AllFinite) :
    OnlyRefuses (d.toSql s) :=
  (s.onlyRefuses_checkedTable d.table).bind fun _ =>
    (Clauses.onlyRefuses_toSql h).bind fun _ => onlyRefuses_ok _

/-! ## From JSON to statements -/

/-- What is refused when a description is read from JSON is malformed. What is read has a statement
or is refused as well: it is malformed, an operator has no meaning for a value, or the dialect lacks
a construct. -/
theorem Builder.errors_of_json (b : Builder) (j : Json) :
    ((∀ e, Query.ofJson j = .error e → e.isMalformed = true) ∧
        (∀ e, Insertion.ofJson j = .error e → e.isMalformed = true) ∧
        (∀ e, Update.ofJson j = .error e → e.isMalformed = true) ∧
        ∀ e, Deletion.ofJson j = .error e → e.isMalformed = true) ∧
      (∀ q, Query.ofJson j = .ok q →
        (∀ e, b.select q = .error e → e.IsRefusal) ∧ (∀ e, b.get q = .error e → e.IsRefusal) ∧
        (∀ e, b.has q = .error e → e.IsRefusal) ∧
        ∀ a e, b.aggregate a q = .error e → e.IsRefusal) ∧
      (∀ i, Insertion.ofJson j = .ok i →
        (∀ e, b.insert i = .error e → e.IsRefusal) ∧
        ∀ e, b.multiInsert i = .error e → e.IsRefusal) ∧
      (∀ u, Update.ofJson j = .ok u → ∀ e, b.update u = .error e → e.IsRefusal) ∧
      ∀ d, Deletion.ofJson j = .ok d → ∀ e, b.delete d = .error e → e.IsRefusal := by
  refine ⟨⟨fun e => (Query.ends_ofJson j).error, fun e => (Insertion.ends_ofJson j).error,
    fun e => (Update.ends_ofJson j).error, fun e => (Deletion.ends_ofJson j).error⟩, ?_, ?_, ?_, ?_⟩
  · intro q hq
    have hfinite := (Query.ends_ofJson j).ok hq
    exact ⟨(Query.onlyRefuses_selectSql hfinite).map, (Query.onlyRefuses_getSql hfinite).map,
      (Query.onlyRefuses_hasSql hfinite).map, fun a =>
        (Query.onlyRefuses_selectSql (q := q.withReduction (.aggregate a)) hfinite).map⟩
  · intro i hi
    have hfinite := (Insertion.ends_ofJson j).ok hi
    exact ⟨(Insertion.onlyRefuses_eachSql hfinite).map,
      (Insertion.onlyRefuses_togetherSql hfinite).map⟩
  · intro u hu
    exact (Update.onlyRefuses_toSql ((Update.ends_ofJson j).ok hu)).map
  · intro d hd
    exact (Deletion.onlyRefuses_toSql ((Deletion.ends_ofJson j).ok hd)).map

theorem Builder.errors_of_json_at :
    let b : Builder := ⟨⟨.postgres, .ansi, ""⟩, by decide⟩
    let j : Json := .obj [("FROM", .str "t"), ("WHERE", .obj [("a[>]", .bool true)])]
    let q : Query := { table := "t", clauses := { conditions := [("a[>]", .value (.bool true))] } }
    let e : Error := .unsupportedOperator "a" "[>]" "bool"
    (Update.ofJson j = .error (.malformed .noAssignments) ∧
        (Error.malformed .noAssignments).isMalformed = true) ∧
      Query.ofJson j = .ok q ∧ b.select q = .error e ∧ e.IsRefusal := by
  intro b j q e
  have hupdate : Update.ofJson j = .error (.malformed .noAssignments) := by rfl
  have hquery : Query.ofJson j = .ok q := by rfl
  have hselect : b.select q = .error e := by decide +kernel
  have herrors := errors_of_json b j
  exact ⟨⟨hupdate, herrors.1.2.2.1 _ hupdate⟩, hquery, hselect,
    (herrors.2.1 q hquery).1 e hselect⟩

end KeyedQuery
