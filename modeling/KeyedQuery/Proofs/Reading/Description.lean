import KeyedQuery.Proofs.Reading.Clause
import KeyedQuery.Query.Basic
import KeyedQuery.Write.Description

/-!
# Reading descriptions

What a JSON object must hold to be read as a query, an update or a deletion, part by part. The three
read their clauses alike, so a clause may stand among the conditions or beside them: where it stands
in both places the one beside does not matter, and where it stands beside only it may be moved among
the conditions. The exception is an empty array of columns to group by among the conditions, which
does not keep the one beside from being read.
-/

namespace KeyedQuery

/-! ## The parts of a description -/

section Parts

variable {fields : Entries Json}

theorem Query.ofFields_eq_ok_iff {q : Query} : ofFields fields = .ok q ↔
    (∀ key ∈ Entries.keys fields, key ∈ jsonKeys ∨ key ∈ Clauses.jsonKeys) ∧
      (firstOf? fields ["TABLE", "FROM", "SELECT"]).bind Json.asString? = some q.table ∧
      readPart (columnsField? fields) .all Projection.ofJson = .ok q.projection ∧
      readPart (Entries.get? fields "JOIN") [] readJoins = .ok q.joins ∧
      Clauses.ofFields fields = .ok q.clauses ∧
      readPart (Entries.get? fields "FUN") none (fun j => (Reduction.ofJson j).map some) =
        .ok q.reduction := by
  unfold ofFields
  cases hunknown : (Entries.keys fields).find? fun k => k ∉ jsonKeys ∧ k ∉ Clauses.jsonKeys with
  | some key =>
      have hmem := List.mem_of_find?_eq_some hunknown
      have hkey : key ∉ jsonKeys ∧ key ∉ Clauses.jsonKeys := by
        simpa using List.find?_some hunknown
      refine iff_of_false (fun h => ?_) fun h => ?_
      · simp [Result.do_eq_ok_iff, fault] at h
      · exact (h.1 key hmem).elim hkey.1 hkey.2
  | none =>
      have hknown : ∀ key ∈ Entries.keys fields, key ∈ jsonKeys ∨ key ∈ Clauses.jsonKeys := by
        intro key hkey
        have hnot := List.find?_eq_none.1 hunknown key hkey
        by_contra hnone
        exact hnot (by simpa using not_or.1 hnone)
      cases (firstOf? fields ["TABLE", "FROM", "SELECT"]).bind Json.asString? with
      | none => simp [Result.do_eq_ok_iff, fault]
      | some table =>
          simp only [Result.do_eq_ok_iff, Result.pure_eq_ok_iff]
          constructor
          · rintro ⟨_, htable, projection, hprojection, joins, hjoins, clauses, hclauses, reduction,
              hreduction, rfl⟩
            obtain rfl := Except.ok.inj htable
            exact ⟨hknown, rfl, hprojection, hjoins, hclauses, hreduction⟩
          · rintro ⟨-, htable, hprojection, hjoins, hclauses, hreduction⟩
            obtain rfl := Option.some.inj htable
            exact ⟨_, rfl, _, hprojection, _, hjoins, _, hclauses, _, hreduction, rfl⟩

theorem Write.readFields_eq_ok_iff {kind : Kind} {known : List String} {fields' : Entries Json} :
    readFields kind known (.obj fields) = .ok fields' ↔
      fields = fields' ∧ ∀ key ∈ Entries.keys fields, key ∈ known := by
  simp only [readFields]
  split
  · next key hkey =>
      have hmem := List.mem_of_find?_eq_some hkey
      have hunknown : key ∉ known := by simpa using List.find?_some hkey
      simp only [fault, reduceCtorEq, false_iff]
      exact fun h => hunknown (h.2 key hmem)
  · next hnone =>
      have hknown : ∀ key ∈ Entries.keys fields, key ∈ known := by
        simpa using List.find?_eq_none.1 hnone
      simp only [Except.ok.injEq]
      exact ⟨fun heq => ⟨heq, hknown⟩, fun h => h.1⟩

theorem Write.readTable_eq_ok_iff {kind : Kind} {table : String} :
    readTable kind fields = .ok table ↔
      (["TABLE", "FROM", kind.keyword].findSome? (Entries.get? fields)).bind Json.asString? =
        some table := by
  unfold readTable
  split
  · next htable => simp [htable]
  · next hnone => simp [hnone, fault]

theorem Update.ofJson_eq_ok_iff {u : Update} : ofJson (.obj fields) = .ok u ↔
    (∀ key ∈ Entries.keys fields, key ∈ jsonKeys) ∧
      (["TABLE", "FROM", "UPDATE"].findSome? (Entries.get? fields)).bind Json.asString? =
        some u.table ∧
      (∃ j, ["SET", "VALUES"].findSome? (Entries.get? fields) = some j ∧
        Record.ofJson j = .ok u.assignments) ∧
      Clauses.ofFields fields = .ok u.clauses := by
  unfold ofJson
  simp only [Result.do_eq_ok_iff, Write.readFields_eq_ok_iff]
  constructor
  · rintro ⟨_, ⟨rfl, hknown⟩, h⟩
    split at h
    · simp [fault] at h
    · next j hj =>
        simp only [Result.do_eq_ok_iff, Result.pure_eq_ok_iff] at h
        obtain ⟨table, htable, assignments, hassignments, clauses, hclauses, rfl⟩ := h
        exact ⟨hknown, Write.readTable_eq_ok_iff.1 htable, ⟨j, hj, hassignments⟩, hclauses⟩
  · rintro ⟨hknown, htable, ⟨j, hj, hassignments⟩, hclauses⟩
    refine ⟨fields, ⟨rfl, hknown⟩, ?_⟩
    rw [hj]
    simp only [Result.do_eq_ok_iff, Result.pure_eq_ok_iff]
    exact ⟨_, Write.readTable_eq_ok_iff.2 htable, _, hassignments, _, hclauses, rfl⟩

theorem Deletion.ofJson_eq_ok_iff {d : Deletion} : ofJson (.obj fields) = .ok d ↔
    (∀ key ∈ Entries.keys fields, key ∈ jsonKeys) ∧
      (["TABLE", "FROM", "DELETE"].findSome? (Entries.get? fields)).bind Json.asString? =
        some d.table ∧
      Clauses.ofFields fields = .ok d.clauses := by
  unfold ofJson
  simp only [Result.do_eq_ok_iff, Result.pure_eq_ok_iff, Write.readFields_eq_ok_iff]
  constructor
  · rintro ⟨_, ⟨rfl, hknown⟩, table, htable, clauses, hclauses, rfl⟩
    exact ⟨hknown, Write.readTable_eq_ok_iff.1 htable, hclauses⟩
  · rintro ⟨hknown, htable, hclauses⟩
    exact ⟨fields, ⟨rfl, hknown⟩, _, Write.readTable_eq_ok_iff.2 htable, _, hclauses, rfl⟩

end Parts

end KeyedQuery
