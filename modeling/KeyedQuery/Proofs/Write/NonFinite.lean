import KeyedQuery.Proofs.Canonical.Condition
import KeyedQuery.Proofs.Condition.Support
import KeyedQuery.Proofs.Write.Rows

/-!
# Numbers that are not finite

A number that is not finite has no literal, and a statement that would store it is refused. Within a
list it is not noticed, for a list is stored as the text of its JSON form, in which such a number is
`null`. So every statement stores the data with `null` in place of these numbers within lists, and
it is written only if no other of them is left.
-/

namespace KeyedQuery

namespace Value

mutual

def finiteOrNull : Value → Value
  | null => null
  | bool b => bool b
  | int n => int n
  | float x => if x.isFinite then float x else null
  | text s => text s
  | list items => list (eachFiniteOrNull items)

def eachFiniteOrNull : List Value → List Value
  | [] => []
  | v :: rest => v.finiteOrNull :: eachFiniteOrNull rest

end

/-- The value that a statement stores, if it stores one: in a list, `null` takes the place of the
numbers that are not finite. -/
def stored : Value → Value
  | list items => list (eachFiniteOrNull items)
  | v => v

mutual

theorem allFinite_finiteOrNull : ∀ v : Value, v.finiteOrNull.allFinite = true
  | null => rfl
  | bool _ => rfl
  | int _ => rfl
  | float x => by
      rw [finiteOrNull]
      split
      · next h => exact h
      · rfl
  | text _ => rfl
  | list items => eachFinite_eachFiniteOrNull items

theorem eachFinite_eachFiniteOrNull :
    ∀ items : List Value, eachFinite (eachFiniteOrNull items) = true
  | [] => rfl
  | v :: rest => by
      rw [eachFiniteOrNull, eachFinite, allFinite_finiteOrNull v, eachFinite_eachFiniteOrNull rest]
      rfl

end

mutual

/-- In the JSON form the numbers that are not finite are `null` already. -/
theorem toJson_finiteOrNull : ∀ v : Value, v.finiteOrNull.toJson = v.toJson
  | null => rfl
  | bool _ => rfl
  | int _ => rfl
  | float (.finite _) => rfl
  | float (.infinite _) => rfl
  | float .nan => rfl
  | text _ => rfl
  | list items => congrArg Json.arr (toJsonAll_eachFiniteOrNull items)

theorem toJsonAll_eachFiniteOrNull :
    ∀ items : List Value, toJsonAll (eachFiniteOrNull items) = toJsonAll items
  | [] => rfl
  | v :: rest => by
      rw [eachFiniteOrNull, toJsonAll, toJson_finiteOrNull v, toJsonAll_eachFiniteOrNull rest,
        toJsonAll]

end

variable {v : Value}

theorem tag_stored (v : Value) : v.stored.tag = v.tag := by
  cases v <;> rfl

theorem numericSql?_stored (v : Value) : v.stored.numericSql? = v.numericSql? := by
  cases v <;> rfl

theorem ofValue_stored (raw : Bool) (v : Value) :
    Literal.ofValue raw v.stored = Literal.ofValue raw v := by
  cases v with
  | list items =>
      rw [stored, Literal.ofValue, Literal.ofValue, toJsonAll_eachFiniteOrNull]
  | _ => rfl

theorem allFinite_stored_iff : v.stored.allFinite = true ↔ v.nonFinite? = none := by
  cases v with
  | float x => cases h : x.isFinite <;> simp [stored, allFinite, nonFinite?, h]
  | list items => simp [stored, allFinite, nonFinite?, eachFinite_eachFiniteOrNull]
  | _ => simp [stored, allFinite, nonFinite?]

theorem nonFinite?_isSome_iff (h : v.allFinite = false) :
    (∃ x, v.nonFinite? = some x) ↔ v.isList = false := by
  cases v with
  | float x =>
      have hx : x.isFinite = false := h
      simp [nonFinite?, hx, isList]
  | list items => simp [nonFinite?, isList]
  | _ => cases h

/-- A value has a literal exactly if it is stored without a number that is not finite. -/
theorem isOk_ofValue_iff {raw : Bool} :
    (Literal.ofValue raw v).isOk = true ↔ v.stored.allFinite = true := by
  rw [allFinite_stored_iff, Result.isOk_iff, ← Result.error?_eq_none_iff, Literal.error?_ofValue,
    Option.map_eq_none_iff]

end Value

/-! ## Rows and assignments -/

namespace Record

variable {r : Record} {s : Settings} {key : String} {v : Value}

theorem literal_stored (key : String) (v : Value) : literal key v.stored = literal key v := by
  rw [literal, literal, Value.ofValue_stored]

theorem isOk_literal_iff : (literal key v).isOk = true ↔ v.stored.allFinite = true := by
  rw [literal, Result.isOk_map, Value.isOk_ofValue_iff]

/-- A value is refused as invalid exactly if it is itself a number that is not finite. -/
theorem literal_invalid_iff :
    (∃ reason, literal key v = .error (.invalidValue reason)) ↔ ∃ x, v.nonFinite? = some x := by
  have herror : Result.error? (literal key v) = v.nonFinite?.map Value.nonFinite := by
    rw [literal, Result.error?_map, Literal.error?_ofValue]
  simp only [← Result.error?_eq_some_iff, herror, Option.map_eq_some_iff]
  constructor
  · rintro ⟨_, x, hx, -⟩
    exact ⟨x, hx⟩
  · rintro ⟨x, hx⟩
    exact ⟨_, x, hx, rfl⟩

def stored (r : Record) : Record where
  entries := r.entries.map fun e => (e.1, e.2.stored)
  nodup_keys := by
    rw [Entries.keys, List.map_map]
    exact r.nodup_keys

theorem keys_stored (r : Record) : r.stored.keys = r.keys := by
  rw [keys, stored, Entries.keys, List.map_map]
  rfl

theorem size_stored (r : Record) : r.stored.size = r.size := List.length_map _

theorem isEmpty_stored (r : Record) : r.stored.isEmpty = r.isEmpty := List.isEmpty_map

theorem get?_stored (r : Record) (key : String) :
    r.stored.get? key = (r.get? key).map Value.stored := by
  simp only [get?, stored]
  induction r.entries with
  | nil => rfl
  | cons e rest ih =>
      rw [List.map_cons, Entries.get?_cons, Entries.get?_cons, ih]
      split <;> rfl

theorem valuesSql_stored (r : Record) : r.stored.valuesSql = r.valuesSql := by
  rw [valuesSql, stored, List.mapM_map]
  exact congrArg (Except.map _) (Result.mapM_congr fun e _ => literal_stored e.1 e.2)

theorem valueAt_stored (r : Record) (row : Nat) (key : String) :
    r.stored.valueAt row key = r.valueAt row key := by
  rw [valueAt, valueAt, get?_stored]
  cases r.get? key with
  | none => rfl
  | some v => exact literal_stored key v

theorem tupleSql_stored (keys : List String) (row : Nat) (r : Record) :
    r.stored.tupleSql keys row = r.tupleSql keys row := by
  rw [tupleSql, tupleSql, size_stored, Result.mapM_congr fun key _ => valueAt_stored r row key]

theorem allFinite_of_valuesSql (h : r.valuesSql.isOk = true) :
    ∀ e ∈ r.stored.entries, e.2.allFinite = true := by
  rw [valuesSql, Result.isOk_map, Result.isOk_mapM] at h
  exact List.forall_mem_map.2 fun e he => isOk_literal_iff.1 (h e he)

theorem toSql_stored (s : Settings) (k : AssignmentKey) (v : Value) :
    k.toSql s v.stored = k.toSql s v := by
  rw [AssignmentKey.toSql, AssignmentKey.toSql, Value.ofValue_stored, Value.numericSql?_stored,
    Value.tag_stored]

/-- An assignment stores its value, or adds a number that has to be finite. -/
theorem allFinite_of_toSql {k : AssignmentKey} (h : (k.toSql s v).isOk = true) :
    v.stored.allFinite = true := by
  simp only [AssignmentKey.toSql] at h
  split at h
  · rw [Result.isOk_map] at h
    exact Value.isOk_ofValue_iff.1 h
  · next number _ hnumber =>
      rw [Result.isOk_map] at h
      cases v with
      | float x =>
          obtain rfl : Value.floatSql x = number := Option.some.inj hnumber
          obtain ⟨t, ht⟩ := Result.isOk_iff.1 h
          exact ((Value.floatSql_eq_ok_iff x t).1 ht).1
      | int n => rfl
      | _ => cases hnumber
  · simp [Except.isOk, Except.toBool] at h

theorem assignmentsSql_stored (s : Settings) (r : Record) :
    r.stored.assignmentsSql s = r.assignmentsSql s := by
  rw [assignmentsSql, stored, List.mapM_map]
  refine Result.mapM_congr fun e _ => ?_
  simp only [Function.comp_apply, toSql_stored]

theorem allFinite_of_assignmentsSql (h : (r.assignmentsSql s).isOk = true) :
    ∀ e ∈ r.stored.entries, e.2.allFinite = true := by
  rw [assignmentsSql, Result.isOk_mapM] at h
  refine List.forall_mem_map.2 fun e he => ?_
  obtain ⟨f, hf⟩ := Result.isOk_iff.1 (h e he)
  obtain ⟨k, -, hk⟩ := Result.bind_eq_ok_iff.1 hf
  exact allFinite_of_toSql (Result.isOk_iff.2 ⟨f, hk⟩)

end Record

/-! ## Statements -/

namespace Insertion

variable {i : Insertion} {s : Settings}

/-- The insertion with the values of its rows as they are stored. -/
def stored (i : Insertion) : Insertion := { i with rows := i.rows.map Record.stored }

theorem headSql_stored (i : Insertion) (s : Settings) : i.stored.headSql s = i.headSql s := by
  rw [headSql, headSql, stored, List.isEmpty_map]

theorem rowSql_stored (s : Settings) (head : Fragment) (row : Record) :
    rowSql s head row.stored = rowSql s head row := by
  rw [rowSql, rowSql, Record.isEmpty_stored, Record.valuesSql_stored, Record.keys_stored]

theorem eachSql_stored (s : Settings) (i : Insertion) : i.stored.eachSql s = i.eachSql s := by
  rw [eachSql, eachSql, headSql_stored, stored]
  simp only [List.mapM_map]
  refine congrArg (i.headSql s >>= ·) (funext fun head => ?_)
  exact Result.mapM_congr fun row _ => rowSql_stored s head row

theorem tuplesSql_stored (keys : List String) (row : Nat) (rows : List Record) :
    tuplesSql keys row (rows.map Record.stored) = tuplesSql keys row rows := by
  induction rows generalizing row with
  | nil => rfl
  | cons r rest ih => rw [List.map_cons, tuplesSql, tuplesSql, Record.tupleSql_stored, ih]

theorem togetherSql_stored (s : Settings) (i : Insertion) :
    i.stored.togetherSql s = i.togetherSql s := by
  have hkeys : i.stored.rows.head?.map Record.keys = i.rows.head?.map Record.keys := by
    rw [stored, List.head?_map, Option.map_map]
    exact congrArg (Option.map · i.rows.head?) (funext Record.keys_stored)
  rw [togetherSql, togetherSql, headSql_stored, hkeys]
  simp only [stored, tuplesSql_stored]

theorem allFinite_of_eachSql (h : (i.eachSql s).isOk = true) :
    ∀ row ∈ i.stored.rows, ∀ e ∈ row.entries, e.2.allFinite = true := by
  obtain ⟨fs, hfs⟩ := Result.isOk_iff.1 h
  obtain ⟨head, -, hrows⟩ := Result.do_eq_ok_iff.1 hfs
  refine List.forall_mem_map.2 fun row hrow => Record.allFinite_of_valuesSql ?_
  exact (isOk_rowSql_iff.1 (Result.isOk_mapM.1 (Result.isOk_iff.2 ⟨fs, hrows⟩) row hrow)).2

end Insertion

namespace Update

variable {u : Update} {s : Settings}

def stored (u : Update) : Update := { u with assignments := u.assignments.stored }

theorem toSql_stored (s : Settings) (u : Update) : u.stored.toSql s = u.toSql s := by
  rw [toSql, toSql, stored, Record.isEmpty_stored, Record.assignmentsSql_stored]

theorem allFinite_of_toSql (h : (u.toSql s).isOk = true) :
    ∀ e ∈ u.stored.assignments.entries, e.2.allFinite = true := by
  obtain ⟨f, hf⟩ := Result.isOk_iff.1 h
  obtain ⟨table, -, hf⟩ := Result.do_eq_ok_iff.1 hf
  split at hf
  · simp [fault] at hf
  · obtain ⟨assignments, hassignments, -⟩ := Result.do_eq_ok_iff.1 hf
    exact Record.allFinite_of_assignmentsSql (Result.isOk_iff.2 ⟨_, hassignments⟩)

end Update

namespace Builder

/-- A value with a number that is not finite is refused as invalid exactly if it is no list. A list
is written as if `null` stood in place of these numbers, and so are the rows and assignments of
every statement. A statement that is written has no other of them. -/
theorem non_finite_is_refused_outside_lists (b : Builder) :
    (∀ key v, v.allFinite = false →
        ((∃ reason, Record.literal key v = .error (.invalidValue reason)) ↔ v.isList = false) ∧
        ((Record.literal key v).isOk = true ↔ v.isList = true)) ∧
      (∀ key v, Record.literal key v = Record.literal key v.stored ∧
        ((Record.literal key v).isOk = true ↔ v.stored.allFinite = true)) ∧
      (∀ i, b.insert i = b.insert i.stored ∧ ((b.insert i).isOk = true →
        ∀ row ∈ i.stored.rows, ∀ e ∈ row.entries, e.2.allFinite = true)) ∧
      (∀ i, b.multiInsert i = b.multiInsert i.stored ∧ ((b.multiInsert i).isOk = true →
        ∀ row ∈ i.stored.rows, ∀ e ∈ row.entries, e.2.allFinite = true)) ∧
      ∀ u, b.update u = b.update u.stored ∧ ((b.update u).isOk = true →
        ∀ e ∈ u.stored.assignments.entries, e.2.allFinite = true) := by
  refine ⟨fun key v hv => ⟨?_, ?_⟩, fun key v => ⟨(Record.literal_stored key v).symm,
    Record.isOk_literal_iff⟩, fun i => ⟨?_, fun h => ?_⟩, fun i => ⟨?_, fun h => ?_⟩,
    fun u => ⟨?_, fun h => ?_⟩⟩
  · rw [Record.literal_invalid_iff, Value.nonFinite?_isSome_iff hv]
  · rw [Record.isOk_literal_iff, Value.allFinite_stored_iff, Option.eq_none_iff_forall_ne_some,
      ← not_exists, Value.nonFinite?_isSome_iff hv, Bool.not_eq_false]
  · rw [insert, insert, Insertion.eachSql_stored]
  · rw [insert, Result.isOk_map] at h
    exact Insertion.allFinite_of_eachSql h
  · rw [multiInsert, multiInsert, Insertion.togetherSql_stored]
  · rw [multiInsert, write, Result.isOk_map, Insertion.isOk_togetherSql_iff] at h
    obtain ⟨_, _, _, _, _, heach⟩ := h
    exact Insertion.allFinite_of_eachSql heach
  · rw [update, update, Update.toSql_stored]
  · rw [update, write, Result.isOk_map] at h
    exact Update.allFinite_of_toSql h

/-- What is not a number is stored as `null` within a list, under any kind of statement. -/
theorem nan_is_stored_within_list :
    let b : Builder := ⟨⟨.postgres, .ansi, ""⟩, by decide⟩
    let v : Value := .list [.float .nan]
    let row := Record.ofList [("a", v)]
    v.allFinite = false ∧
      (Record.literal "a" v).map (Fragment.text b.settings) = .ok "'[null]'" ∧
      b.insert { table := "t", rows := [row] } =
        .ok ["INSERT INTO \"t\" (\"a\") VALUES ('[null]')"] ∧
      b.multiInsert { table := "t", rows := [row] } =
        .ok "INSERT INTO \"t\" (\"a\") VALUES ('[null]')" ∧
      b.update { table := "t", assignments := row } =
        .ok "UPDATE \"t\" SET \"a\" = '[null]'" := by
  decide +kernel

end Builder

end KeyedQuery
