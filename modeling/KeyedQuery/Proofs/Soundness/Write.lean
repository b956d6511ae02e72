import KeyedQuery.Proofs.Entries
import KeyedQuery.Proofs.Soundness.Query
import KeyedQuery.Write.Statement

/-!
# Soundness of statements that write

The text of a write falls back into its pieces if no name that it holds has a mark of quotation in
it and the calls that raw keys let through are plain. The keys of a row are columns as they stand,
so they are among the names; the keys of assignments admit no mark in a column.
-/

namespace KeyedQuery

open Sql

variable {s : Settings} {f : Fragment}

/-! ## Rows -/

namespace Record

variable {r : Record}

/-- The call that a key of a row and its value let through as it is, if there is one. -/
def callOf? (e : String × Value) : Option String :=
  Literal.verbatim? (Identifier.splitMarker e.1).1 e.2

/-- The calls that the raw keys of a row let through. -/
def calls (r : Record) : List String := r.entries.filterMap callOf?

theorem sound_literal {names : List String} (h : s.Admits names r.calls) {key : String} {v : Value}
    (hmem : (key, v) ∈ r.entries) (hf : literal key v = .ok f) : Fragment.Sound s f := by
  obtain ⟨p, hp, rfl⟩ := Result.map_eq_ok_iff.1 hf
  refine .singleton (Literal.sound_ofValue hp fun t ht => ?_)
  exact h.calls t (List.mem_filterMap.2 ⟨(key, v), hmem, ht⟩)

theorem sound_tuple {values : List Fragment} (h : ∀ g ∈ values, Fragment.Sound s g) :
    Fragment.Sound s (Fragment.join ", " values).parens :=
  (Fragment.Sound.join (by decide) h).parens

theorem sound_valuesSql {names : List String} (h : s.Admits names r.calls)
    (hf : r.valuesSql = .ok f) : Fragment.Sound s f := by
  obtain ⟨values, hvalues, rfl⟩ := Result.map_eq_ok_iff.1 hf
  exact sound_tuple (Result.forall_mem_of_mapM hvalues fun e he g hg => sound_literal h he hg)

theorem sound_tupleSql {names keys : List String} {row : Nat} (h : s.Admits names r.calls)
    (hf : r.tupleSql keys row = .ok f) : Fragment.Sound s f := by
  unfold tupleSql at hf
  split at hf
  · obtain ⟨values, hvalues, rfl⟩ := Result.map_eq_ok_iff.1 hf
    refine sound_tuple (Result.forall_mem_of_mapM hvalues fun key _ g hg => ?_)
    unfold valueAt at hg
    split at hg
    · next v hv => exact sound_literal h (Entries.mem_of_get?_eq_some hv) hg
    · simp [fault] at hg
  · simp [fault] at hf

theorem sound_columnsSql {keys calls : List String} (h : s.Admits keys calls) :
    Fragment.Sound s (columnsSql s keys) :=
  (h.sound_columns (by decide)).parens

end Record

/-! ## Insertions -/

namespace Insertion

variable {i : Insertion} {head : Fragment}

def names (i : Insertion) : List String := i.table :: i.rows.flatMap Record.keys

def calls (i : Insertion) : List String := i.rows.flatMap Record.calls

theorem admits_row (h : s.Admits i.names i.calls) {row : Record} (hrow : row ∈ i.rows) :
    s.Admits row.keys row.calls := by
  refine h.mono (fun name hname => ?_) fun call hcall => ?_
  · exact List.mem_cons_of_mem _ (List.mem_flatMap.2 ⟨row, hrow, hname⟩)
  · exact List.mem_flatMap.2 ⟨row, hrow, hcall⟩

theorem isCode_text (v : Verb) : isCode v.text = true := by
  obtain ⟨replace, schedule, ignore⟩ := v
  rcases schedule with _ | schedule
  · cases replace <;> cases ignore <;> decide
  · cases schedule <;> cases replace <;> cases ignore <;> decide

theorem sound_headSql (h : s.Admits i.names i.calls) (hf : i.headSql s = .ok f) :
    Fragment.Sound s f := by
  obtain ⟨table, htable, hf⟩ := Result.do_eq_ok_iff.1 hf
  have hsound := Settings.sound_checkedTable (h.names _ List.mem_cons_self) h.tablePrefix htable
  split at hf
  · simp [fault] at hf
  split at hf
  · simp [Dialect.lacks] at hf
  · rw [← Except.ok.inj hf]
    have hinto : isCode " INTO " = true := by decide
    exact hsound.cons_code (isCode_append (isCode_text i.verb) hinto)

/-- The columns and the values of a statement may stand behind its head. -/
theorem sound_of_values (hhead : Fragment.Sound s head) {keys calls : List String}
    (h : s.Admits keys calls) {values : Fragment} (hvalues : Fragment.Sound s values) :
    Fragment.Sound s
      (head ++ .code " " :: Record.columnsSql s keys ++ .code " VALUES " :: values) := by
  have hcolumns := Record.sound_columnsSql h
  exact (hhead.append_code (by decide) hcolumns).append_code (by decide) hvalues

theorem sound_rowSql (hhead : Fragment.Sound s head) {row : Record}
    (h : s.Admits row.keys row.calls) (hf : rowSql s head row = .ok f) : Fragment.Sound s f := by
  unfold rowSql at hf
  split at hf
  · simp [fault] at hf
  · simp only [Result.do_eq_ok_iff, Result.pure_eq_ok_iff] at hf
    obtain ⟨values, hvalues, rfl⟩ := hf
    exact sound_of_values hhead h (Record.sound_valuesSql h hvalues)

theorem sound_eachSql (h : s.Admits i.names i.calls) {fragments : List Fragment}
    (hf : i.eachSql s = .ok fragments) : ∀ f ∈ fragments, Fragment.Sound s f := by
  obtain ⟨head, hhead, hrows⟩ := Result.do_eq_ok_iff.1 hf
  have hhead := sound_headSql h hhead
  exact Result.forall_mem_of_mapM hrows fun row hrow f hf =>
    sound_rowSql hhead (admits_row h hrow) hf

theorem sound_tuplesSql {keys : List String} {row : Nat} {rows : List Record}
    (h : ∀ r ∈ rows, s.Admits r.keys r.calls) {tuples : List Fragment}
    (hf : tuplesSql keys row rows = .ok tuples) : ∀ f ∈ tuples, Fragment.Sound s f := by
  induction rows generalizing row tuples with
  | nil =>
      obtain rfl : [] = tuples := Except.ok.inj hf
      simp
  | cons r rows ih =>
      simp only [tuplesSql, Result.do_eq_ok_iff, Result.pure_eq_ok_iff] at hf
      obtain ⟨tuple, htuple, rest, hrest, rfl⟩ := hf
      rw [List.forall_mem_cons] at h
      exact List.forall_mem_cons.2 ⟨Record.sound_tupleSql h.1 htuple, ih h.2 hrest⟩

theorem sound_togetherSql (h : s.Admits i.names i.calls) (hf : i.togetherSql s = .ok f) :
    Fragment.Sound s f := by
  obtain ⟨head, hhead, hf⟩ := Result.do_eq_ok_iff.1 hf
  have hhead := sound_headSql h hhead
  have hkeys : (i.rows.head?.map Record.keys).getD [] ⊆ i.names := by
    cases hrows : i.rows with
    | nil => simp
    | cons row rows => simp [names, hrows]
  simp only at hf
  split at hf
  · simp [fault] at hf
  · simp only [Result.do_eq_ok_iff, Result.pure_eq_ok_iff] at hf
    obtain ⟨tuples, htuples, rfl⟩ := hf
    have hsound := sound_tuplesSql (fun row hrow => admits_row h hrow) htuples
    exact sound_of_values hhead (h.mono hkeys (List.Subset.refl _))
      (Fragment.Sound.join (by decide) hsound)

end Insertion

/-! ## Updates and substitutions -/

namespace AssignmentKey

def verbatim? (k : AssignmentKey) (v : Value) : Option String :=
  match k.operator with
  | none => Literal.verbatim? k.raw v
  | some _ => none

/-- The call that the key of an assignment and its value let through as it is, if there is one. -/
def callOf? (e : String × Value) : Option String :=
  match parse e.1 with
  | .ok k => k.verbatim? e.2
  | .error _ => none

variable {k : AssignmentKey} {v : Value}

theorem sound_toSql (hcolumn : Fragment.Sound s (s.column k.column))
    (hcall : ∀ t, k.verbatim? v = some t → s.Plain t.toList) (hf : k.toSql s v = .ok f) :
    Fragment.Sound s f := by
  unfold toSql at hf
  simp only at hf
  split at hf
  · next hop =>
      obtain ⟨p, hp, rfl⟩ := Result.map_eq_ok_iff.1 hf
      have hsound := Literal.sound_ofValue hp fun t ht => hcall t (by rwa [verbatim?, hop])
      exact hcolumn.append_code (by decide) (.singleton hsound)
  · next op _ _ hnumber =>
      obtain ⟨n, rfl, rfl⟩ := Result.map_eq_ok_iff.1 hf
      have hnumeral : Fragment.Sound s [.code n] :=
        .code (isCode_of_isNumeral (Value.isNumeral_of_numericSql? hnumber))
      have hsign : isCode s!" {op.sign} " = true := by
        cases op <;> decide
      exact (hcolumn.append_code (by decide) hcolumn).append_code hsign
        hnumeral
  · simp at hf

end AssignmentKey

def Record.assignedCalls (r : Record) : List String := r.entries.filterMap AssignmentKey.callOf?

theorem Record.sound_assignmentsSql {r : Record} {names : List String}
    (h : s.Admits names r.assignedCalls) {fragments : List Fragment}
    (hf : r.assignmentsSql s = .ok fragments) : ∀ f ∈ fragments, Fragment.Sound s f := by
  refine Result.forall_mem_of_mapM hf fun e he f hf => ?_
  obtain ⟨k, hk, hf⟩ := Result.bind_eq_ok_iff.1 hf
  have hcolumn := Key.absentFrom_column (Key.parse_eq_ok hk).2 s.quoteStyle
  refine AssignmentKey.sound_toSql (s.sound_column hcolumn h.tablePrefix) (fun t ht => ?_) hf
  refine h.calls t (List.mem_filterMap.2 ⟨e, he, ?_⟩)
  rw [AssignmentKey.callOf?, hk]
  exact ht

theorem Write.sound_updateSql {table : Fragment} (htable : Fragment.Sound s table)
    {assignments : List Fragment} (hassignments : ∀ g ∈ assignments, Fragment.Sound s g)
    {c : Clauses} (h : s.Admits c.names c.calls)
    (hf : Write.updateSql s table assignments c = .ok f) : Fragment.Sound s f := by
  obtain ⟨clauses, hclauses, rfl⟩ := Result.map_eq_ok_iff.1 hf
  have hupdate : isCode "UPDATE " = true := by decide
  have hjoin : Fragment.Sound s (Fragment.join ", " assignments) :=
    Fragment.Sound.join (by decide) hassignments
  have hset : isCode " SET " = true := by decide
  exact ((htable.cons_code hupdate).append_code hset hjoin).append
    (Clauses.trailing_toSql h hclauses)

def Update.names (u : Update) : List String := u.table :: u.clauses.names

def Update.calls (u : Update) : List String := u.assignments.assignedCalls ++ u.clauses.calls

theorem Update.sound_toSql {u : Update} (h : s.Admits u.names u.calls) (hf : u.toSql s = .ok f) :
    Fragment.Sound s f := by
  obtain ⟨table, htable, hf⟩ := Result.do_eq_ok_iff.1 hf
  have hsound := Settings.sound_checkedTable (h.names _ List.mem_cons_self) h.tablePrefix htable
  split at hf
  · simp [fault] at hf
  · obtain ⟨assignments, hassignments, hf⟩ := Result.do_eq_ok_iff.1 hf
    have hassigned := Record.sound_assignmentsSql
      (h.mono (List.Subset.refl _) (List.subset_append_left _ _)) hassignments
    exact Write.sound_updateSql hsound hassigned
      (h.mono (List.subset_cons_self _ _) (List.subset_append_right _ _)) hf

def Substitution.names (table : String) (substitutions : List Substitution) (c : Clauses) :
    List String :=
  table :: substitutions.map Substitution.column ++ c.names

theorem Substitution.sound_assignment {r : Substitution}
    (hcolumn : Fragment.Sound s (s.column r.column)) : Fragment.Sound s (r.assignment s) := by
  have hend : Fragment.Sound s [.literal r.replacement, .code ")"] :=
    (Fragment.Sound.literal s r.replacement).append_code (by decide) (.nil s)
  have htexts : Fragment.Sound s
      [.literal r.search, .code ", ", .literal r.replacement, .code ")"] :=
    (Fragment.Sound.literal s r.search).append_code (by decide) hend
  exact (hcolumn.append_code (by decide) hcolumn).append_code (by decide) htexts

theorem Substitution.sound_toSql {table : String} {substitutions : List Substitution} {c : Clauses}
    (h : s.Admits (names table substitutions c) c.calls)
    (hf : toSql s table substitutions c = .ok f) : Fragment.Sound s f := by
  obtain ⟨name, hname, hf⟩ := Result.do_eq_ok_iff.1 hf
  have hsound := Settings.sound_checkedTable (h.names _ (by simp [names])) h.tablePrefix hname
  split at hf
  · simp [fault] at hf
  · refine Write.sound_updateSql hsound (fun g hg => ?_)
      (h.mono (List.subset_append_right _ _) (List.Subset.refl _)) hf
    obtain ⟨r, hr, rfl⟩ := List.mem_map.1 hg
    refine sound_assignment (h.sound_column (List.mem_append_left _ ?_))
    exact List.mem_cons_of_mem _ (List.mem_map.2 ⟨r, hr, rfl⟩)

/-! ## Deletions -/

def Deletion.names (d : Deletion) : List String := d.table :: d.clauses.names

theorem Deletion.sound_toSql {d : Deletion} (h : s.Admits d.names d.clauses.calls)
    (hf : d.toSql s = .ok f) : Fragment.Sound s f := by
  simp only [toSql, Result.do_eq_ok_iff, Result.pure_eq_ok_iff] at hf
  obtain ⟨table, htable, clauses, hclauses, rfl⟩ := hf
  have hsound := Settings.sound_checkedTable (h.names _ List.mem_cons_self) h.tablePrefix htable
  have hdelete : isCode "DELETE FROM " = true := by decide
  have hclauses := Clauses.trailing_toSql
    (h.mono (List.subset_cons_self _ _) (List.Subset.refl _)) hclauses
  exact (hsound.cons_code hdelete).append hclauses

end KeyedQuery
