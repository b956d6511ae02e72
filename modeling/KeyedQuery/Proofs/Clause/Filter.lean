import KeyedQuery.Builder
import KeyedQuery.Proofs.Clause.FullText
import KeyedQuery.Proofs.Reading.Description

/-!
# Filters are not lost

Without a filter a deletion or an update reaches every row of its table. Where there are conditions
or a full-text search, some code comes out of them or they are refused: of every kind of condition
on a column, of a group, which stands in parentheses, and of whatever takes the place of a whole
predicate. So the statement goes on with `WHERE` and a predicate behind the table and the
assignments.
-/

namespace KeyedQuery

/-! ## Fragments that hold code -/

namespace Fragment

/-- Some code that is not empty stands in the fragment. -/
def HasCode (f : Fragment) : Prop := ∃ text, text ≠ "" ∧ .code text ∈ f

variable {f g : Fragment}

theorem HasCode.append_left (h : HasCode f) (g : Fragment) : HasCode (f ++ g) :=
  h.imp fun _ ⟨hne, hmem⟩ => ⟨hne, List.mem_append_left g hmem⟩

theorem HasCode.append_right (h : HasCode g) (f : Fragment) : HasCode (f ++ g) :=
  h.imp fun _ ⟨hne, hmem⟩ => ⟨hne, List.mem_append_right f hmem⟩

theorem hasCode_cons {text : String} (h : text ≠ "") (f : Fragment) : HasCode (.code text :: f) :=
  ⟨text, h, List.mem_cons_self⟩

theorem hasCode_parens (f : Fragment) : HasCode (parens f) := hasCode_cons (by decide) _

theorem HasCode.join {separator : String} {parts : List Fragment} (hne : parts ≠ [])
    (h : ∀ f ∈ parts, HasCode f) : HasCode (join separator parts) := by
  obtain ⟨f, rest, rfl⟩ := List.exists_cons_of_ne_nil hne
  have hf := h f List.mem_cons_self
  cases rest with
  | nil => rwa [join_singleton]
  | cons g rest => exact join_cons_cons separator f g rest ▸ hf.append_left _

theorem HasCode.text_ne_empty (h : HasCode f) (s : Settings) : f.text s ≠ "" := by
  obtain ⟨text, hne, hmem⟩ := h
  obtain ⟨before, after, rfl⟩ := List.append_of_mem hmem
  intro hempty
  have hchars := congrArg String.toList hempty
  simp [Piece.chars, hne] at hchars

end Fragment

open Fragment

/-! ## Conditions -/

namespace LeafKey

variable {s : Settings} {k : LeafKey} {v : Value} {column f : Fragment}

theorem hasCode_membership {negated : Bool} {items : List Value}
    (h : membership column negated items = .ok f) : HasCode f := by
  unfold membership at h
  split at h
  · rw [← Except.ok.inj h]
    cases negated <;> exact hasCode_cons (by decide) _
  · simp only [Result.do_eq_ok_iff, Result.pure_eq_ok_iff] at h
    obtain ⟨values, -, rfl⟩ := h
    exact (hasCode_cons (by decide) []).append_right _

theorem hasCode_inferred {negated : Bool} (h : inferred column k negated v = .ok f) :
    HasCode f := by
  unfold inferred at h
  split at h
  · rw [← Except.ok.inj h]
    refine HasCode.append_right ?_ column
    cases negated <;> exact hasCode_cons (by decide) _
  · split at h
    · simp at h
    · exact hasCode_membership h
  · obtain ⟨value, -, rfl⟩ := Result.map_eq_ok_iff.1 h
    refine HasCode.append_right ?_ column
    cases negated <;> exact hasCode_cons (by decide) _

theorem hasCode_range {negated : Bool} {low high : Value}
    (h : range column negated low high = .ok f) : HasCode f := by
  simp only [range, Result.do_eq_ok_iff, Result.pure_eq_ok_iff] at h
  obtain ⟨_, -, _, -, rfl⟩ := h
  exact hasCode_parens _

theorem hasCode_anyOf {alternatives : List Fragment} (h : ∀ g ∈ alternatives, HasCode g) :
    HasCode (anyOf alternatives) := by
  unfold anyOf
  split
  · exact h _ List.mem_cons_self
  · exact hasCode_parens _

theorem hasCode_matchOf (column : Fragment) (raw negated : Bool) (term : String) :
    HasCode (matchOf column raw negated term) := by
  refine HasCode.append_right ?_ column
  cases negated <;> exact hasCode_cons (by decide) _

theorem hasCode_compared (column : Fragment) (c : Comparison) (value : Piece) :
    HasCode (compared column c value) := by
  refine HasCode.append_right ?_ column
  cases c <;> exact hasCode_cons (by decide) _

/-- Code comes out of a condition on a column, whatever the operator and the value. -/
theorem hasCode_toSql (h : k.toSql s v = .ok f) : HasCode f := by
  unfold toSql at h
  simp only at h
  split at h
  · exact hasCode_inferred h
  · exact hasCode_inferred h
  · split at h
    · split at h
      · exact hasCode_range h
      · simp at h
    · simp at h
  · split at h
    · simp at h
    · obtain ⟨terms, -, rfl⟩ := Result.map_eq_ok_iff.1 h
      refine hasCode_anyOf fun g hg => ?_
      obtain ⟨term, -, rfl⟩ := List.mem_map.1 hg
      exact hasCode_matchOf _ _ _ term
  · split at h
    · obtain ⟨value, -, rfl⟩ := Result.map_eq_ok_iff.1 h
      exact hasCode_compared _ _ value
    · simp at h

end LeafKey

theorem Node.hasCode_toSql {s : Settings} {outer : Conjunctor} {key : String} {node : Node}
    {f : Fragment} (h : node.toSql s outer key = .ok f) : HasCode f := by
  cases node with
  | value v =>
      obtain ⟨k, -, hf⟩ := toSql_value_eq_ok h
      exact LeafKey.hasCode_toSql hf
  | group entries =>
      obtain ⟨g, parts, -, -, -, rfl⟩ := toSql_group_eq_ok h
      exact hasCode_parens _
  | siblings groups =>
      obtain ⟨g, parts, -, -, -, rfl⟩ := toSql_siblings_eq_ok h
      exact hasCode_parens _

namespace Conditions

variable {s : Settings} {m : Conditions} {f : Fragment}

theorem hasCode_compileEach {outer : Conjunctor} {entries : List (String × Node)}
    {parts : List Fragment} (h : compileEach s outer entries = .ok parts) :
    ∀ f ∈ parts, HasCode f := by
  induction entries generalizing parts with
  | nil =>
      obtain rfl : [] = parts := Except.ok.inj h
      simp
  | cons p rest ih =>
      obtain ⟨part, tail, hpart, htail, rfl⟩ := compileEach_cons_eq_ok h
      exact List.forall_mem_cons.2 ⟨Node.hasCode_toSql hpart, ih htail⟩

theorem hasCode_toSql {c : Conjunctor} (hne : m ≠ []) (h : m.toSql s c = .ok f) : HasCode f := by
  obtain ⟨parts, hparts, rfl⟩ := Result.map_eq_ok_iff.1 h
  refine HasCode.join ?_ (hasCode_compileEach hparts)
  rw [← List.length_pos_iff, length_compileEach hparts]
  exact List.length_pos_iff.2 hne

theorem hasCode_predicate (hne : m ≠ []) (h : m.predicate s = .ok f) : HasCode f := by
  rw [predicate_eq_topGroup hne] at h
  obtain ⟨hgroup, -⟩ := leaves_top_subset m ""
  cases hnode : m.top.2 with
  | value v => simp [hnode, Node.isGroup] at hgroup
  | group entries =>
      rw [hnode] at h
      obtain ⟨hentries, hf⟩ := topGroup_group_eq_ok h
      exact hasCode_toSql hentries hf
  | siblings groups =>
      rw [hnode] at h
      obtain ⟨parts, hgroups, hparts, rfl⟩ := topGroup_siblings_eq_ok h
      refine HasCode.join ?_ fun g hg => ?_
      · rw [ne_eq, List.map_eq_nil_iff, ← List.length_eq_zero_iff,
          ← (Result.mapM_eq_ok_iff.1 hparts).length_eq, List.length_eq_zero_iff]
        exact hgroups
      · obtain ⟨part, -, rfl⟩ := List.mem_map.1 hg
        exact hasCode_parens part

end Conditions

/-! ## Clauses -/

namespace Clauses

variable {s : Settings} {c : Clauses} {f : Fragment}

theorem hasCode_filterSql (hne : c.conditions ≠ [] ∨ c.fullText ≠ none)
    (h : c.filterSql s = .ok f) : HasCode f := by
  obtain ⟨filter, hfilter, h⟩ := Result.do_eq_ok_iff.1 h
  split at h
  · next hnone =>
      rw [Result.pure_eq_ok_iff] at h
      exact h ▸ Conditions.hasCode_predicate (hne.resolve_right fun hsome => hsome hnone) hfilter
  · obtain ⟨search, hsearch, h⟩ := Result.do_eq_ok_iff.1 h
    obtain ⟨-, rfl⟩ := FullText.toSql_eq_ok hsearch
    rw [← Result.pure_eq_ok_iff.1 h]
    split
    · exact hasCode_cons (by decide) _
    · exact (hasCode_cons (by decide) _).append_right filter

/-- A text goes on behind `head` with the clauses, which start with `WHERE` and the filter, and the
filter is not empty. -/
def FilterBehind (s : Settings) (c : Clauses) (head text : String) : Prop :=
  ∃ filter clauses rest : Fragment, c.filterSql s = .ok filter ∧ filter.text s ≠ "" ∧
    c.toSql s = .ok clauses ∧ clauses.text s = " WHERE " ++ filter.text s ++ rest.text s ∧
    text = head ++ clauses.text s

/-- Clauses that have conditions or a search start with `WHERE` and a filter. -/
theorem filterBehind_of_toSql (hne : c.conditions ≠ [] ∨ c.fullText ≠ none)
    {clauses : Fragment} (h : c.toSql s = .ok clauses) (head : Fragment) :
    c.FilterBehind s (head.text s) ((head ++ clauses).text s) := by
  have hclauses := h
  simp only [toSql, Result.do_eq_ok_iff, Result.pure_eq_ok_iff] at h
  obtain ⟨filter, hfilter, having, -, order, -, limit, -, rfl⟩ := h
  have hcode := hasCode_filterSql hne hfilter
  have hnonempty : filter.isEmpty = false := by
    obtain ⟨_, -, hmem⟩ := hcode
    simpa using List.ne_nil_of_mem hmem
  refine ⟨filter, _, c.groupSql s ++ having ++ order ++ limit, hfilter, hcode.text_ne_empty s,
    hclauses, ?_, ?_⟩
  · rw [← String.toList_inj]
    simp [clauseSql, hnonempty, Piece.chars]
  · rw [← String.toList_inj]
    simp

end Clauses

theorem Settings.checkedTable_eq_ok {s : Settings} {name : String} {f : Fragment}
    (h : s.checkedTable name = .ok f) : f = s.table (Text.trim name) := by
  unfold checkedTable at h
  simp only at h
  split at h
  · simp [fault] at h
  · exact (Except.ok.inj h).symm

/-! ## Statements -/

def Deletion.headText (s : Settings) (table : String) : String :=
  "DELETE FROM " ++ s.quoteTable (Text.trim table)

def Write.updateHeadText (s : Settings) (table : String) (assignments : List Fragment) : String :=
  "UPDATE " ++ s.quoteTable (Text.trim table) ++ " SET " ++ (join ", " assignments).text s

namespace Builder

variable {b : Builder} {table sql : String} {c : Clauses}

theorem exists_of_write {statement : Result Fragment} (h : b.write statement = .ok sql) :
    ∃ f, statement = .ok f ∧ f.text b.settings = sql :=
  Result.map_eq_ok_iff.1 h

theorem filterBehind_of_delete (hne : c.conditions ≠ [] ∨ c.fullText ≠ none)
    (h : b.delete ⟨table, c⟩ = .ok sql) :
    c.FilterBehind b.settings (Deletion.headText b.settings table) sql := by
  obtain ⟨f, hf, rfl⟩ := exists_of_write h
  simp only [Deletion.toSql, Result.do_eq_ok_iff, Result.pure_eq_ok_iff] at hf
  obtain ⟨name, hname, clauses, hclauses, rfl⟩ := hf
  rw [Settings.checkedTable_eq_ok hname]
  have hhead : Deletion.headText b.settings table =
      Fragment.text b.settings (.code "DELETE FROM " :: b.settings.table (Text.trim table)) := by
    rw [Fragment.text_cons_code]
    rfl
  rw [hhead]
  exact Clauses.filterBehind_of_toSql hne hclauses _

theorem filterBehind_of_updateSql (hne : c.conditions ≠ [] ∨ c.fullText ≠ none) {name f : Fragment}
    (hname : b.settings.checkedTable table = .ok name) {assignments : List Fragment}
    (h : Write.updateSql b.settings name assignments c = .ok f) :
    c.FilterBehind b.settings (Write.updateHeadText b.settings table assignments)
      (f.text b.settings) := by
  obtain ⟨clauses, hclauses, rfl⟩ := Result.map_eq_ok_iff.1 h
  rw [Settings.checkedTable_eq_ok hname]
  have hhead : Write.updateHeadText b.settings table assignments =
      Fragment.text b.settings (.code "UPDATE " :: b.settings.table (Text.trim table) ++
        .code " SET " :: join ", " assignments) := by
    rw [← String.toList_inj]
    simp [Write.updateHeadText, Settings.quoteTable, Piece.chars]
  rw [hhead]
  exact Clauses.filterBehind_of_toSql hne hclauses _

theorem filterBehind_of_update (hne : c.conditions ≠ [] ∨ c.fullText ≠ none) {record : Record}
    (h : b.update ⟨table, record, c⟩ = .ok sql) :
    ∃ assignments, record.assignmentsSql b.settings = .ok assignments ∧
      c.FilterBehind b.settings (Write.updateHeadText b.settings table assignments) sql := by
  obtain ⟨f, hf, rfl⟩ := exists_of_write h
  rw [Update.toSql] at hf
  obtain ⟨name, hname, hf⟩ := Result.do_eq_ok_iff.1 hf
  split at hf
  · simp [fault] at hf
  · obtain ⟨assignments, hassignments, hf⟩ := Result.do_eq_ok_iff.1 hf
    exact ⟨assignments, hassignments, filterBehind_of_updateSql hne hname hf⟩

theorem filterBehind_of_replace (hne : c.conditions ≠ [] ∨ c.fullText ≠ none)
    {substitutions : List Substitution} (h : b.replace table substitutions c = .ok sql) :
    c.FilterBehind b.settings (Write.updateHeadText b.settings table
      (substitutions.map (Substitution.assignment b.settings))) sql := by
  obtain ⟨f, hf, rfl⟩ := exists_of_write h
  rw [Substitution.toSql] at hf
  obtain ⟨name, hname, hf⟩ := Result.do_eq_ok_iff.1 hf
  split at hf
  · simp [fault] at hf
  · exact filterBehind_of_updateSql hne hname hf

/-- A deletion, an update or a substitution with conditions or a search goes on with `WHERE` and a
filter behind its table and its assignments. So does the statement of a deletion or of an update
read from an object in which some condition stands under `WHERE`. -/
theorem filter_is_kept (b : Builder) :
    (∀ (c : Clauses) (table sql : String), c.conditions ≠ [] ∨ c.fullText ≠ none →
        (b.delete ⟨table, c⟩ = .ok sql →
          c.FilterBehind b.settings (Deletion.headText b.settings table) sql) ∧
        (∀ record, b.update ⟨table, record, c⟩ = .ok sql →
          ∃ assignments, record.assignmentsSql b.settings = .ok assignments ∧
            c.FilterBehind b.settings (Write.updateHeadText b.settings table assignments) sql) ∧
        ∀ substitutions, b.replace table substitutions c = .ok sql →
          c.FilterBehind b.settings (Write.updateHeadText b.settings table
            (substitutions.map (Substitution.assignment b.settings))) sql) ∧
      ∀ (fields inner : Entries Json) (sql : String),
        Entries.get? fields "WHERE" = some (.obj inner) →
        (∃ key ∈ Entries.keys inner, key ∉ Clauses.jsonKeys) →
        (∀ d, Deletion.ofJson (.obj fields) = .ok d → b.delete d = .ok sql →
          d.clauses.FilterBehind b.settings (Deletion.headText b.settings d.table) sql) ∧
        ∀ u, Update.ofJson (.obj fields) = .ok u → b.update u = .ok sql →
          ∃ assignments, u.assignments.assignmentsSql b.settings = .ok assignments ∧
            u.clauses.FilterBehind b.settings
              (Write.updateHeadText b.settings u.table assignments) sql := by
  refine ⟨fun c table sql hne => ⟨filterBehind_of_delete hne,
    fun record => filterBehind_of_update hne, fun substitutions => filterBehind_of_replace hne⟩, ?_⟩
  rintro fields inner sql hwhere ⟨key, hmem, hkey⟩
  have hne : ∀ c : Clauses, Clauses.ofFields fields = .ok c → c.conditions ≠ [] := by
    intro c hc hnil
    have hkeys := Clauses.keys_conditions hwhere hc
    have hkept : key ∈ (Entries.keys inner).filter fun key => key ∉ Clauses.jsonKeys :=
      List.mem_filter.2 ⟨hmem, by simpa using hkey⟩
    rw [← hkeys, hnil] at hkept
    simp at hkept
  refine ⟨fun d hd hsql => ?_, fun u hu hsql => ?_⟩
  · exact filterBehind_of_delete (.inl (hne _ (Deletion.ofJson_eq_ok_iff.1 hd).2.2)) hsql
  · exact filterBehind_of_update (.inl (hne _ (Update.ofJson_eq_ok_iff.1 hu).2.2.2)) hsql

theorem filter_is_kept_at :
    let b : Builder := ⟨⟨.mysql, .backtick, "p_"⟩, by decide⟩
    let c : Clauses := { conditions := [("OR", .siblings [[("a", .value (.list []))]])] }
    let d : Deletion := ⟨"t", { conditions := [("a[!]", .value .null)], limit := some (.count 1) }⟩
    (b.delete ⟨"t", c⟩ = .ok "DELETE FROM \x60p_t\x60 WHERE (1=0)" ∧
        c.FilterBehind b.settings (Deletion.headText b.settings "t")
          "DELETE FROM \x60p_t\x60 WHERE (1=0)") ∧
      Deletion.ofJson (.obj [("FROM", .str "t"),
        ("WHERE", .obj [("LIMIT", .str "1"), ("a[!]", .null)])]) = .ok d ∧
      b.delete d = .ok "DELETE FROM \x60p_t\x60 WHERE \x60a\x60 IS NOT NULL LIMIT 1" ∧
      d.clauses.FilterBehind b.settings (Deletion.headText b.settings d.table)
        "DELETE FROM \x60p_t\x60 WHERE \x60a\x60 IS NOT NULL LIMIT 1" := by
  intro b c d
  have hc : b.delete ⟨"t", c⟩ = .ok "DELETE FROM \x60p_t\x60 WHERE (1=0)" := by decide +kernel
  have hd : Deletion.ofJson (.obj [("FROM", .str "t"),
      ("WHERE", .obj [("LIMIT", .str "1"), ("a[!]", .null)])]) = .ok d := by rfl
  have hsql : b.delete d =
      .ok "DELETE FROM \x60p_t\x60 WHERE \x60a\x60 IS NOT NULL LIMIT 1" := by decide +kernel
  have hkept := filter_is_kept b
  refine ⟨⟨hc, (hkept.1 c "t" _ (.inl (by simp [c]))).1 hc⟩, hd, hsql, ?_⟩
  exact (hkept.2 _ _ _ rfl ⟨"a[!]", by decide, by decide⟩).1 d hd hsql

end Builder

end KeyedQuery
