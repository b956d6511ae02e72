import KeyedQuery.Builder
import KeyedQuery.Proofs.Key
import KeyedQuery.Proofs.Payload.Clause

/-!
# Payloads of statements

The values of rows and of assignments, the texts of a substitution and the payloads of the clauses
are what a statement holds of payloads. Emptying them changes its text in nothing but the content of
string literals.
-/

namespace KeyedQuery

/-! ## Queries -/

namespace Query

def mask (q : Query) : Query := { q with clauses := q.clauses.mask }

variable (s : Settings) (q : Query)

theorem map_blank_selectSql :
    (q.mask.selectSql s).map Fragment.blank = (q.selectSql s).map Fragment.blank := by
  unfold selectSql
  refine Result.map_do_congr_right fun main => ?_
  refine Result.map_do_congr_right fun projection => ?_
  refine Result.map_do_congr_right fun joins => ?_
  refine Result.map_do_congr (Clauses.map_blank_toSql s q.clauses) fun f g h => ?_
  refine congrArg Except.ok ?_
  simp only [Fragment.blank_append, h]

theorem map_blank_getSql :
    (q.mask.getSql s).map Fragment.blank = (q.getSql s).map Fragment.blank := by
  have horder : q.mask.clauses.order.isNone = q.clauses.order.isNone := by
    simp [mask, Clauses.mask]
  unfold getSql
  rw [horder]
  split
  · refine Result.map_do_congr_right fun limit => ?_
    have hselect := map_blank_selectSql s { q with clauses := { q.clauses with limit := none } }
    refine Result.map_do_congr hselect fun f g h => congrArg Except.ok ?_
    rw [Fragment.blank_append, Fragment.blank_append, h]
  · exact map_blank_selectSql s (q.withLimit (.count 1))

theorem map_blank_hasSql :
    (q.mask.hasSql s).map Fragment.blank = (q.hasSql s).map Fragment.blank := by
  have hselect := map_blank_selectSql s
    { q with projection := .all, reduction := some .existence }
  refine Result.map_do_congr hselect fun f g h => congrArg Except.ok ?_
  simp only [List.cons_append, Fragment.blank_cons, Fragment.blank_append, h]

theorem map_blank_aggregateSql (a : Aggregate) :
    (q.mask.aggregateSql s a).map Fragment.blank = (q.aggregateSql s a).map Fragment.blank :=
  map_blank_selectSql s (q.withReduction (.aggregate a))

end Query

/-! ## Rows -/

namespace Record

def maskUnder (key : String) (v : Value) : Value := v.maskUnless (Identifier.splitMarker key).1

def mask (r : Record) : Record where
  entries := r.entries.map fun e => (e.1, maskUnder e.1 e.2)
  nodup_keys := by
    have hkeys : Entries.keys (r.entries.map fun e => (e.1, maskUnder e.1 e.2)) =
        r.entries.keys := by
      simp [Entries.keys, Function.comp_def]
    rw [hkeys]
    exact r.nodup_keys

variable (r : Record)

@[simp] theorem keys_mask : r.mask.keys = r.keys := by
  simp [keys, mask, Entries.keys, Function.comp_def]

@[simp] theorem size_mask : r.mask.size = r.size := by
  simp [size, mask]

@[simp] theorem isEmpty_mask : r.mask.isEmpty = r.isEmpty := by
  simp [isEmpty, mask]

theorem get?_mask (key : String) : r.mask.get? key = (r.get? key).map (maskUnder key) := by
  unfold get? mask
  simp only
  induction r.entries with
  | nil => rfl
  | cons e entries ih =>
      obtain ⟨k, v⟩ := e
      rw [List.map_cons, Entries.get?_cons, Entries.get?_cons, ih]
      split
      · next hk => rw [hk, Option.map_some]
      · rfl

theorem map_blank_literal (key : String) (v : Value) :
    (literal key (maskUnder key v)).map Fragment.blank = (literal key v).map Fragment.blank := by
  refine Result.map_map_congr (Literal.map_blank_ofValue _ v) fun p q h => ?_
  rw [Fragment.blank_cons, Fragment.blank_cons, h]

theorem blank_tuple {fs gs : List Fragment}
    (h : fs.map Fragment.blank = gs.map Fragment.blank) :
    (Fragment.join ", " fs).parens.blank = (Fragment.join ", " gs).parens.blank := by
  rw [Fragment.blank_parens, Fragment.blank_parens, Fragment.blank_join, Fragment.blank_join, h]

theorem map_blank_valuesSql :
    (r.mask.valuesSql).map Fragment.blank = (r.valuesSql).map Fragment.blank :=
  Result.map_map_congr (Result.map_mapM_congr fun e _ => map_blank_literal e.1 e.2)
    fun _ _ => blank_tuple

theorem map_blank_valueAt (row : Nat) (key : String) :
    (r.mask.valueAt row key).map Fragment.blank = (r.valueAt row key).map Fragment.blank := by
  unfold valueAt
  rw [get?_mask]
  cases r.get? key with
  | none => rfl
  | some v => exact map_blank_literal key v

theorem map_blank_tupleSql (keys : List String) (row : Nat) :
    (r.mask.tupleSql keys row).map Fragment.blank = (r.tupleSql keys row).map Fragment.blank := by
  unfold tupleSql
  rw [size_mask]
  split
  · have hvalues : ((keys.map id).mapM (r.mask.valueAt row)).map (List.map Fragment.blank) =
        (keys.mapM (r.valueAt row)).map (List.map Fragment.blank) :=
      Result.map_mapM_congr fun key _ => map_blank_valueAt r row key
    rw [List.map_id] at hvalues
    exact Result.map_map_congr hvalues fun _ _ => blank_tuple
  · rfl

end Record

theorem AssignmentKey.map_blank_toSql (s : Settings) (k : AssignmentKey) (v : Value) :
    (k.toSql s (v.maskUnless k.raw)).map Fragment.blank = (k.toSql s v).map Fragment.blank := by
  unfold toSql
  cases k.operator with
  | none =>
      refine Result.map_map_congr (Literal.map_blank_ofValue k.raw v) fun p q h => ?_
      simp only [Fragment.blank_append, Fragment.blank_cons, h]
  | some op =>
      rw [Value.numericSql?_maskUnless, Value.tag_maskUnless]
      cases v.numericSql? <;> rfl

theorem Record.map_blank_assignmentsSql (s : Settings) (r : Record) :
    (r.mask.assignmentsSql s).map (List.map Fragment.blank) =
      (r.assignmentsSql s).map (List.map Fragment.blank) := by
  refine Result.map_mapM_congr fun e _ => ?_
  cases hk : AssignmentKey.parse e.1 with
  | error error => simp only [hk, Except.bind]
  | ok k =>
      simp only [hk, Except.bind, maskUnder, ← (Key.parse_eq_ok hk).1]
      exact AssignmentKey.map_blank_toSql s k e.2

/-! ## Writes -/

namespace Insertion

def mask (i : Insertion) : Insertion := { i with rows := i.rows.map Record.mask }

variable (s : Settings) (i : Insertion)

theorem headSql_mask : i.mask.headSql s = i.headSql s := by
  have hempty : i.mask.rows.isEmpty = i.rows.isEmpty := List.isEmpty_map
  unfold headSql
  rw [hempty]
  rfl

theorem map_blank_rowSql (head : Fragment) (row : Record) :
    (rowSql s head row.mask).map Fragment.blank = (rowSql s head row).map Fragment.blank := by
  unfold rowSql
  rw [Record.isEmpty_mask]
  split
  · rfl
  · refine Result.map_do_congr row.map_blank_valuesSql fun f g h => congrArg Except.ok ?_
    rw [Record.keys_mask]
    simp only [Fragment.blank_append, Fragment.blank_cons, h]

theorem map_blank_eachSql :
    (i.mask.eachSql s).map (List.map Fragment.blank) =
      (i.eachSql s).map (List.map Fragment.blank) := by
  unfold eachSql
  rw [headSql_mask]
  refine Result.map_do_congr_right fun head => ?_
  exact Result.map_mapM_congr fun row _ => map_blank_rowSql s head row

theorem map_blank_tuplesSql (keys : List String) (row : Nat) (rows : List Record) :
    (tuplesSql keys row (rows.map Record.mask)).map (List.map Fragment.blank) =
      (tuplesSql keys row rows).map (List.map Fragment.blank) := by
  induction rows generalizing row with
  | nil => rfl
  | cons r rows ih =>
      rw [List.map_cons, tuplesSql, tuplesSql]
      refine Result.map_do_congr (r.map_blank_tupleSql keys row) fun f g h => ?_
      refine Result.map_do_congr (ih (row + 1)) fun fs gs hs => congrArg Except.ok ?_
      rw [List.map_cons, List.map_cons, h, hs]

theorem map_blank_togetherSql :
    (i.mask.togetherSql s).map Fragment.blank = (i.togetherSql s).map Fragment.blank := by
  have hkeys : (i.mask.rows.head?.map Record.keys).getD [] =
      (i.rows.head?.map Record.keys).getD [] := by
    cases hrows : i.rows <;> simp [mask, hrows]
  unfold togetherSql
  rw [headSql_mask]
  refine Result.map_do_congr_right fun head => ?_
  simp only [hkeys]
  split
  · rfl
  · refine Result.map_do_congr (map_blank_tuplesSql _ 0 i.rows) fun fs gs h => ?_
    refine congrArg Except.ok ?_
    simp only [Fragment.blank_append, Fragment.blank_cons, Fragment.blank_join, h]

end Insertion

theorem Write.map_blank_updateSql (s : Settings) (table : Fragment) {fs gs : List Fragment}
    (h : fs.map Fragment.blank = gs.map Fragment.blank) (c : Clauses) :
    (Write.updateSql s table fs c.mask).map Fragment.blank =
      (Write.updateSql s table gs c).map Fragment.blank := by
  refine Result.map_map_congr (Clauses.map_blank_toSql s c) fun f g hclauses => ?_
  simp only [Fragment.blank_append, Fragment.blank_cons, List.cons_append, Fragment.blank_join, h,
    hclauses]

def Update.mask (u : Update) : Update :=
  { u with assignments := u.assignments.mask, clauses := u.clauses.mask }

theorem Update.map_blank_toSql (s : Settings) (u : Update) :
    (u.mask.toSql s).map Fragment.blank = (u.toSql s).map Fragment.blank := by
  unfold toSql
  refine Result.map_do_congr_right fun table => ?_
  rw [mask, Record.isEmpty_mask]
  split
  · rfl
  · refine Result.map_do_congr (u.assignments.map_blank_assignmentsSql s) fun fs gs h => ?_
    exact Write.map_blank_updateSql s table h u.clauses

def Substitution.mask (r : Substitution) : Substitution :=
  { r with search := "", replacement := "" }

theorem Substitution.map_blank_toSql (s : Settings) (table : String)
    (substitutions : List Substitution) (c : Clauses) :
    (toSql s table (substitutions.map mask) c.mask).map Fragment.blank =
      (toSql s table substitutions c).map Fragment.blank := by
  have hassignment : ∀ r : Substitution,
      (r.mask.assignment s).blank = (r.assignment s).blank := by
    intro r
    simp [assignment, mask, Piece.blank]
  unfold toSql
  refine Result.map_do_congr_right fun table => ?_
  rw [List.isEmpty_map]
  split
  · rfl
  · refine Write.map_blank_updateSql s table ?_ c
    rw [List.map_map, List.map_map, List.map_map]
    exact List.map_congr_left fun r _ => hassignment r

def Deletion.mask (d : Deletion) : Deletion := { d with clauses := d.clauses.mask }

theorem Deletion.map_blank_toSql (s : Settings) (d : Deletion) :
    (d.mask.toSql s).map Fragment.blank = (d.toSql s).map Fragment.blank := by
  unfold toSql
  refine Result.map_do_congr_right fun table => ?_
  refine Result.map_do_congr (Clauses.map_blank_toSql s d.clauses) fun f g h => ?_
  refine congrArg Except.ok ?_
  rw [Fragment.blank_append, Fragment.blank_append, h]

end KeyedQuery
