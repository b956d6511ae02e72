import KeyedQuery.Proofs.Soundness.Clause
import KeyedQuery.Query.Statement

/-!
# Soundness of statements that read

The text of a query falls back into its pieces if no name that the query holds has a mark of
quotation in it and the calls that raw keys let through are plain. A label is cut out of the name
that it stands behind, so it is one of the characters of that name.
-/

namespace KeyedQuery

open Sql

/-! ## Tables and labels -/

theorem Text.trimChars_subset (cs : List Char) : trimChars cs ⊆ cs := by
  intro c hc
  rw [trimChars, trimEndChars, List.mem_reverse] at hc
  have hstart := List.mem_reverse.1 ((List.dropWhile_suffix _).mem hc)
  exact (List.dropWhile_suffix _).mem hstart

theorem Label.subset_of_splitBehind? {marker cs : List Char} {name label : String}
    (h : splitBehind? marker cs = some (name, label)) :
    name.toList ⊆ marker ++ cs ∧ label.toList ⊆ marker ++ cs := by
  unfold splitBehind? at h
  simp only at h
  split at h
  · next inner hinner =>
      simp only [Option.ite_none_right_eq_some, Option.some.injEq, Prod.mk.injEq] at h
      obtain ⟨-, rfl, rfl⟩ := h
      rw [String.toList_ofList, String.toList_ofList]
      refine ⟨List.append_subset.2 ⟨List.subset_append_left _ _, fun c hc => ?_⟩, fun c hc => ?_⟩
      · exact List.mem_append_right _ ((List.takeWhile_prefix _).mem hc)
      · have hmem := List.mem_cons_of_mem '(' ((List.takeWhile_prefix _).mem hc)
        rw [← hinner] at hmem
        exact List.mem_append_right _
          ((List.dropWhile_suffix _).mem ((List.dropWhile_suffix _).mem hmem))
  · simp at h

/-- The two parts of a name with a label are cut out of it. -/
theorem Label.subset_of_split? {text name label : String}
    (h : split? text = some (name, label)) :
    name.toList ⊆ text.toList ∧ label.toList ⊆ text.toList := by
  have htrim := Text.trimChars_subset text.toList
  unfold split? at h
  split at h
  · next rest hrest =>
      rw [hrest] at htrim
      exact (subset_of_splitBehind? h).imp (List.Subset.trans · htrim) (List.Subset.trans · htrim)
  · exact (subset_of_splitBehind? h).imp (List.Subset.trans · htrim) (List.Subset.trans · htrim)

theorem QuoteStyle.AbsentFrom.trim {q : QuoteStyle} {name : String} (h : q.AbsentFrom name) :
    q.AbsentFrom (Text.trim name) :=
  h.mono (by rw [Text.toList_trim]; exact Text.trimChars_subset _)

variable {s : Settings} {f : Fragment}

theorem Settings.sound_checkedTable {name : String} (hname : s.quoteStyle.AbsentFrom name)
    (hpre : s.quoteStyle.AbsentFrom s.tablePrefix) (h : s.checkedTable name = .ok f) :
    Fragment.Sound s f := by
  unfold checkedTable at h
  simp only at h
  split at h
  · simp [fault] at h
  · rw [← Except.ok.inj h]
    exact s.sound_table hname.trim hpre

theorem Fragment.Sound.labelled {label : Fragment} (hf : Sound s f) (hlabel : Sound s label) :
    Sound s (f.labelled label) :=
  hf.append_code (by decide) hlabel

theorem MainTable.sound_ofName {table : String} (htable : s.quoteStyle.AbsentFrom table)
    (hpre : s.quoteStyle.AbsentFrom s.tablePrefix) {main : MainTable}
    (h : ofName s table = .ok main) :
    Fragment.Sound s main.reference ∧ Fragment.Sound s main.expression := by
  unfold ofName at h
  split at h
  · next name label hsplit =>
      obtain ⟨hname, hlabel⟩ := Label.subset_of_split? hsplit
      simp only [Result.do_eq_ok_iff, Result.pure_eq_ok_iff] at h
      obtain ⟨g, hg, rfl⟩ := h
      have hsound := s.sound_table (htable.mono hlabel) hpre
      exact ⟨hsound, (Settings.sound_checkedTable (htable.mono hname) hpre hg).labelled hsound⟩
  · simp only [Result.do_eq_ok_iff, Result.pure_eq_ok_iff] at h
    obtain ⟨g, hg, rfl⟩ := h
    exact ⟨Settings.sound_checkedTable htable hpre hg, Settings.sound_checkedTable htable hpre hg⟩

/-! ## Projections -/

def Column.names (c : Column) : List String := c.name :: c.label.toList

theorem Aggregate.sound_apply (a : Aggregate) (hf : Fragment.Sound s f) :
    Fragment.Sound s (a.apply f) := by
  have hopen : isCode s!"{a.name}(" = true := by
    cases a <;> decide
  exact (hf.cons_code hopen).append_code (by decide) (.nil s)

theorem Column.sound_toSql {c : Column} (h : s.Admits c.names []) :
    Fragment.Sound s (c.toSql s) := by
  have hcolumn : Fragment.Sound s (s.column c.name) := h.sound_column List.mem_cons_self
  have hexpression : Fragment.Sound s (c.expression s) := by
    unfold expression
    split
    · next a _ => exact a.sound_apply hcolumn
    · exact hcolumn
  unfold toSql
  split
  · next label hlabel =>
      have hname := h.names label (by simp [names, hlabel])
      exact hexpression.labelled (.singleton hname)
  · exact hexpression

def Projection.names : Projection → List String
  | all => []
  | columns list => list.flatMap Column.names

theorem Projection.sound_toSql {p : Projection} (h : s.Admits p.names []) (hf : p.toSql s = .ok f) :
    Fragment.Sound s f := by
  unfold toSql at hf
  split at hf
  · rw [← Except.ok.inj hf]
    exact .code (by decide)
  · simp [fault] at hf
  · next c list =>
      rw [← Except.ok.inj hf]
      refine Fragment.Sound.join (by decide) fun g hg => ?_
      obtain ⟨column, hcolumn, rfl⟩ := List.mem_map.1 hg
      have hnames : column.names ⊆ (columns (c :: list)).names :=
        fun name hname => List.mem_flatMap.2 ⟨column, hcolumn, hname⟩
      exact Column.sound_toSql (h.mono hnames (List.Subset.refl _))

/-! ## Joins -/

def Relation.names : Relation → List String
  | shared columns => columns
  | pairs columns => columns.flatMap fun p => [p.1, p.2]

namespace Join

def names (j : Join) : List String := j.table :: j.label.toList ++ j.relation.names

variable {j : Join} {main : Fragment}

theorem sound_leftSide (hmain : Fragment.Sound s main) {left : String}
    (hleft : s.quoteStyle.AbsentFrom left) (hpre : s.quoteStyle.AbsentFrom s.tablePrefix) :
    Fragment.Sound s (leftSide s main left) := by
  unfold leftSide
  split
  · exact s.sound_column hleft hpre
  · exact hmain.append_code (by decide) (.singleton hleft)

theorem sound_relationSql (h : s.Admits j.names []) (hmain : Fragment.Sound s main)
    (hf : j.relationSql s main = .ok f) : Fragment.Sound s f := by
  have hrelation : ∀ name ∈ j.relation.names, s.quoteStyle.AbsentFrom name :=
    fun name hname => h.names name (List.mem_append_right _ hname)
  unfold relationSql at hf
  split at hf
  · simp [fault] at hf
  · simp [fault] at hf
  · next columns _ hcolumns =>
      rw [← Except.ok.inj hf]
      have hnames : Fragment.Sound s
          (Fragment.join ", " (columns.map fun column => [Piece.name column])) := by
        refine Fragment.Sound.join (by decide) fun g hg => ?_
        obtain ⟨column, hcolumn, rfl⟩ := List.mem_map.1 hg
        exact .singleton (hrelation column (by simpa [hcolumns, Relation.names] using hcolumn))
      have hopen : isCode "USING (" = true := by decide
      exact (hnames.cons_code hopen).append_code (by decide) (.nil s)
  · next columns _ hcolumns =>
      rw [← Except.ok.inj hf]
      have hreference : s.quoteStyle.AbsentFrom j.reference := by
        unfold reference
        cases hlabel : j.label with
        | none => exact h.names _ (by simp [names])
        | some label => exact h.names _ (by simp [names, hlabel])
      refine Fragment.Sound.cons_code (Fragment.Sound.join (by decide) fun g hg => ?_) (by decide)
      obtain ⟨⟨left, right⟩, hpair, rfl⟩ := List.mem_map.1 hg
      have hpair : left ∈ j.relation.names ∧ right ∈ j.relation.names := by
        rw [hcolumns]
        exact ⟨List.mem_flatMap.2 ⟨_, hpair, by simp⟩, List.mem_flatMap.2 ⟨_, hpair, by simp⟩⟩
      have hleft := sound_leftSide hmain (hrelation left hpair.1) h.tablePrefix
      have hright : Fragment.Sound s [.name right] := .singleton (hrelation right hpair.2)
      have htable := s.sound_table hreference h.tablePrefix
      exact (hleft.append_code (by decide) htable).append_code (by decide) hright

theorem trailing_toSql (h : s.Admits j.names []) (hmain : Fragment.Sound s main)
    (hf : j.toSql s main = .ok f) : Fragment.Trailing s f := by
  simp only [toSql, Result.do_eq_ok_iff, Result.pure_eq_ok_iff] at hf
  obtain ⟨table, htable, relation, hrelation, rfl⟩ := hf
  have htable := Settings.sound_checkedTable (h.names _ (by simp [names])) h.tablePrefix htable
  have hkeyword : isCode s!" {j.kind.keyword} " = true := by
    cases j.kind <;> decide
  have hrelation := sound_relationSql h hmain hrelation
  have hjoin : ∀ {target : Fragment}, Fragment.Sound s target →
      Fragment.Trailing s (.code s!" {j.kind.keyword} " :: target ++ .code " " :: relation) :=
    fun htarget => (htarget.append_code (by decide) hrelation).trailing_cons hkeyword
  cases hlabel : j.label with
  | none => exact hjoin htable
  | some label =>
      have hname := h.names label (by simp [names, hlabel])
      exact hjoin (htable.labelled (s.sound_table hname h.tablePrefix))

end Join

/-! ## Queries -/

namespace Query

variable {q : Query}

/-- The names that a query holds, apart from the columns in the keys of conditions. -/
def names (q : Query) : List String :=
  q.table :: q.projection.names ++ q.joins.flatMap Join.names ++ q.clauses.names

theorem sound_projectionSql (h : s.Admits q.projection.names []) (hf : q.projectionSql s = .ok f) :
    Fragment.Sound s f := by
  unfold projectionSql at hf
  split at hf
  · rw [← Except.ok.inj hf]
    exact .code (by decide)
  · next a _ =>
      obtain ⟨g, hg, rfl⟩ := Result.map_eq_ok_iff.1 hf
      exact a.sound_apply (Projection.sound_toSql h hg)
  · exact Projection.sound_toSql h hf

/-- The statement of a query is sound. -/
theorem sound_selectSql (h : s.Admits q.names q.clauses.calls) (hf : q.selectSql s = .ok f) :
    Fragment.Sound s f := by
  simp only [selectSql, Result.do_eq_ok_iff, Result.pure_eq_ok_iff] at hf
  obtain ⟨main, hmain, projection, hprojection, joins, hjoins, clauses, hclauses, rfl⟩ := hf
  have hmain := MainTable.sound_ofName (h.names _ (by simp [names])) h.tablePrefix hmain
  have hprojection := sound_projectionSql (h.mono (by simp [names]) (by simp)) hprojection
  have hjoins : ∀ g ∈ joins, Fragment.Trailing s g := by
    refine Result.forall_mem_of_mapM hjoins fun j hj g hg => ?_
    have hnames : j.names ⊆ q.names := by
      intro name hname
      exact List.mem_append_left _ (List.mem_append_right _ (List.mem_flatMap.2 ⟨j, hj, hname⟩))
    exact Join.trailing_toSql (h.mono hnames (by simp)) hmain.1 hg
  have hnames : q.clauses.names ⊆ q.names := List.subset_append_right _ _
  have hclauses := Clauses.trailing_toSql (h.mono hnames (List.Subset.refl _)) hclauses
  have hselect : isCode "SELECT " = true := by decide
  have hfrom : isCode " FROM " = true := by decide
  have htable := (hprojection.cons_code hselect).append_code hfrom hmain.2
  exact (htable.append (.flatten hjoins)).append hclauses

theorem sound_getSql (h : s.Admits q.names q.clauses.calls) (hf : q.getSql s = .ok f) :
    Fragment.Sound s f := by
  unfold getSql at hf
  split at hf
  · simp only [Result.do_eq_ok_iff, Result.pure_eq_ok_iff] at hf
    obtain ⟨limit, hlimit, statement, hstatement, rfl⟩ := hf
    have hlimit : Fragment.Sound s [.code limit] :=
      .code (Limit.isCode_toSql hlimit)
    have hsound := sound_selectSql
      (q := { q with clauses := { q.clauses with limit := none } }) h hstatement
    exact hsound.append_code (by decide) hlimit
  · exact sound_selectSql (q := q.withLimit (.count 1)) h hf

theorem sound_hasSql (h : s.Admits q.names q.clauses.calls) (hf : q.hasSql s = .ok f) :
    Fragment.Sound s f := by
  simp only [hasSql, Result.do_eq_ok_iff, Result.pure_eq_ok_iff] at hf
  obtain ⟨statement, hstatement, rfl⟩ := hf
  have hsound := sound_selectSql
    (q := { q with projection := .all, reduction := some .existence })
    (h.mono (by simp [names, Projection.names]) (List.Subset.refl _)) hstatement
  have hopen : isCode "SELECT EXISTS(" = true := by decide
  exact (hsound.cons_code hopen).append_code (by decide) (.nil s)

end Query

end KeyedQuery
