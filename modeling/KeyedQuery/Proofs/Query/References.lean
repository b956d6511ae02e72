import KeyedQuery.Proofs.Clause.Filter
import KeyedQuery.Proofs.Identifier
import KeyedQuery.Proofs.LabelGrammar
import KeyedQuery.Proofs.Query.OneRow
import KeyedQuery.Proofs.Write.Rows

/-!
# References to tables

A selection declares its main table and the tables that it joins, each under a label or under its
own name, and the pairs of a join refer to what is declared. The names come from four places, and in
each they are trimmed, put under the prefix and quoted on their own. They come out as one text, but
for a column that ends in `.*`: this is read as all columns of a table that is qualified by a
database, and no prefix is put in front of the database.
-/

namespace KeyedQuery

/-! ## Columns behind a name -/

namespace Identifier

variable {name table column tablePrefix : String}

theorem beforeStar?_eq_some_iff : beforeStar? name = some table ↔ name = table ++ ".*" := by
  constructor
  · intro h
    obtain ⟨cs, hcs, rfl⟩ := Option.map_eq_some_iff.1 h
    rw [List.isSuffixOf?_eq_some_iff_append_eq] at hcs
    rw [← String.toList_inj, ← hcs]
    simp
  · rintro rfl
    exact beforeStar?_append_star table

/-- What stands behind a name and a point: the star as it is, and all other segments as names. -/
def ofTail (column : String) : Identifier :=
  if column = "*" then [.star]
  else
    match beforeStar? column with
    | some table => (segments table).map .name ++ [.star]
    | none => (segments column).map .name

theorem ofTail_ne_nil (column : String) : ofTail column ≠ [] := by
  unfold ofTail
  split
  · simp
  · split
    · simp
    · simp [segments_ne_nil]

theorem beforeStar?_append (name : String) (hstar : column ≠ "*") :
    beforeStar? (name ++ "." ++ column) = (beforeStar? column).map (name ++ "." ++ ·) := by
  cases h : beforeStar? column with
  | some table =>
      rw [Option.map_some, beforeStar?_eq_some_iff, beforeStar?_eq_some_iff.1 h,
        ← String.append_assoc]
  | none =>
      rw [Option.map_none, Option.eq_none_iff_forall_ne_some]
      intro table htable
      have hchars : name.toList ++ '.' :: column.toList = table.toList ++ ['.', '*'] := by
        simpa using congrArg String.toList (beforeStar?_eq_some_iff.1 htable)
      have hne : column.toList ≠ ['*'] := fun heq => hstar (String.toList_inj.1 heq)
      rcases List.append_eq_append_iff.1 hchars with ⟨between, -, hcolumn⟩ | ⟨between, -, hending⟩
      · cases between with
        | nil => exact hne (List.cons.inj hcolumn).2
        | cons c rest =>
            have hstarred : column = String.ofList rest ++ ".*" := by
              rw [← String.toList_inj, (List.cons.inj hcolumn).2]
              simp
            rw [beforeStar?_eq_some_iff.2 hstarred] at h
            cases h
      · cases between with
        | nil => exact hne (List.cons.inj hending).2.symm
        | cons c rest => cases rest <;> simp at hending

/-- A column behind a name without points is written under this name, with the prefix in front of
it. Of the columns that end in `.*` this holds without a prefix only. -/
theorem ofColumn_append (hmarker : name.toList.head? ≠ some '#') (hpoint : '.' ∉ name.toList)
    (h : tablePrefix = "" ∨ beforeStar? column = none) :
    ofColumn (name ++ "." ++ column) tablePrefix =
      .name (tablePrefix ++ name) :: ofTail column := by
  have hname := segments_of_not_mem hpoint
  by_cases hstar : column = "*"
  · subst hstar
    have hall : name ++ "." ++ "*" = name ++ ".*" := String.append_assoc
    rw [hall, ofColumn_append_star hmarker, ofTable, hname]
    rfl
  · unfold ofColumn ofTail
    simp only [splitMarker_append hmarker, if_neg (append_point_ne_star name column), if_neg hstar,
      beforeStar?_append name hstar]
    cases htable : beforeStar? column with
    | some table =>
        obtain rfl := h.resolve_right (by simp [htable])
        obtain ⟨first, rest, hsegments⟩ := List.exists_cons_of_ne_nil (segments_ne_nil table)
        simp [ofTable, segments_append_point, hname, hsegments]
    | none =>
        obtain ⟨first, rest, hsegments⟩ := List.exists_cons_of_ne_nil (segments_ne_nil column)
        simp [segments_append_point, hname, hsegments]

end Identifier

theorem Settings.quoteColumn_append {s : Settings} {name column : String}
    (hmarker : name.toList.head? ≠ some '#') (hpoint : '.' ∉ name.toList)
    (h : s.tablePrefix = "" ∨ Identifier.beforeStar? column = none) :
    s.quoteColumn (name ++ "." ++ column) =
      s.quoteTable name ++ "." ++ (Identifier.ofTail column).toSql.text s := by
  have htable : Identifier.ofTable name s.tablePrefix = [.name (s.tablePrefix ++ name)] := by
    rw [Identifier.ofTable, Identifier.segments_of_not_mem hpoint]
  rw [quoteColumn, Settings.column, Identifier.ofColumn_append hmarker hpoint h, quoteTable,
    Settings.table, htable, Identifier.toSql_cons _ (Identifier.ofTail_ne_nil column),
    ← String.toList_inj]
  simp [Identifier.toSql, Piece.chars]

/-! ## Declared tables -/

/-- A table that a statement declares, and its label if it has one. -/
structure Declaration where
  table : String
  label : Option String

namespace Declaration

def ofText (text : String) : Declaration :=
  match Label.split? text with
  | some (table, label) => ⟨table, some label⟩
  | none => ⟨Text.trim text, none⟩

def ofJoin (j : Join) : Declaration := ⟨j.table, j.label⟩

def text (s : Settings) (d : Declaration) : String :=
  match d.label with
  | some label => s.quoteTable d.table ++ " AS " ++ s.quoteTable label
  | none => s.quoteTable d.table

/-- The text that refers to the table: what is declared behind `AS`, or else the table itself. -/
def reference (s : Settings) (d : Declaration) : String :=
  match d.label with
  | some label => s.quoteTable label
  | none => s.quoteTable d.table

@[simp] theorem text_none (s : Settings) (table : String) :
    text s ⟨table, none⟩ = s.quoteTable table := rfl

@[simp] theorem text_some (s : Settings) (table label : String) :
    text s ⟨table, some label⟩ = s.quoteTable table ++ " AS " ++ s.quoteTable label := rfl

@[simp] theorem reference_none (s : Settings) (table : String) :
    reference s ⟨table, none⟩ = s.quoteTable table := rfl

@[simp] theorem reference_some (s : Settings) (table label : String) :
    reference s ⟨table, some label⟩ = s.quoteTable label := rfl

/-- The left column of a pair can name the table so: by the label, or else by a name without
points. -/
def IsNamed (d : Declaration) (name : String) : Prop :=
  match d.label with
  | some label => name = label
  | none => name = d.table ∧ '.' ∉ name.toList

/-- The table has a name, and the label is one that can be written. -/
structure IsValid (d : Declaration) : Prop where
  table : d.table ≠ ""
  label : ∀ label ∈ d.label, Label.isLabel label = true

variable {d : Declaration} {name : String} {s : Settings}

theorem IsNamed.reference_eq (h : d.IsNamed name) : d.reference s = s.quoteTable name := by
  obtain ⟨table, label⟩ := d
  cases label with
  | none => rw [show name = table from h.1, reference_none]
  | some label => rw [show name = label from h, reference_some]

theorem IsNamed.ne_empty (h : d.IsNamed name) (hd : d.IsValid) : name ≠ "" := by
  obtain ⟨table, label⟩ := d
  cases label with
  | none =>
      rw [show name = table from h.1]
      exact hd.table
  | some label =>
      rw [show name = label from h]
      rintro rfl
      exact absurd (hd.label "" rfl) (by decide)

theorem IsNamed.not_mem (h : d.IsNamed name) (hd : d.IsValid) : '.' ∉ name.toList := by
  obtain ⟨table, label⟩ := d
  cases label with
  | none => exact h.2
  | some label =>
      rw [show name = label from h]
      intro hmem
      exact absurd ((Label.isLabel_iff.1 (hd.label label rfl)).2 '.' hmem) (by decide)

/-- A table is read without the blanks around its name, and with a label only if this is one. -/
theorem trim_ofText (text : String) : Text.trim (ofText text).table = (ofText text).table ∧
    ∀ label ∈ (ofText text).label, Label.isLabel label = true := by
  unfold ofText
  cases hsplit : Label.split? text with
  | none =>
      refine ⟨String.toList_inj.1 ?_, by simp⟩
      rw [Text.toList_trim, Text.toList_trim, Text.trimChars_trimChars]
  | some parts =>
      obtain ⟨blanks, hwritten⟩ := Label.split?_eq_some_iff.1 hsplit
      exact ⟨@Label.trim_text _ none hwritten.isName (by simp), by simp [hwritten.isLabel]⟩

end Declaration

theorem Settings.trim_ne_empty_of_checkedTable {s : Settings} {name : String} {f : Fragment}
    (h : s.checkedTable name = .ok f) : Text.trim name ≠ "" := by
  unfold checkedTable at h
  simp only at h
  split at h
  · cases h
  · assumption

theorem Fragment.text_labelled (s : Settings) (f label : Fragment) :
    (f.labelled label).text s = f.text s ++ " AS " ++ label.text s := by
  rw [labelled, text_append, text_cons_code, String.append_assoc]

theorem Fragment.text_name (s : Settings) (name : String) :
    Fragment.text s [.name name] = s.quoteName name := by
  rw [Settings.quoteName, Identifier.ofName, Identifier.toSql, List.map_singleton,
    Fragment.join_singleton, Identifier.Part.piece]

theorem MainTable.ofName_eq_ok {s : Settings} {text : String} {main : MainTable}
    (h : ofName s text = .ok main) : (Declaration.ofText text).IsValid ∧
      main.expression.text s = (Declaration.ofText text).text s ∧
      main.reference.text s = (Declaration.ofText text).reference s := by
  obtain ⟨htrim, hlabel⟩ := Declaration.trim_ofText text
  unfold ofName at h
  unfold Declaration.ofText at htrim hlabel ⊢
  cases hsplit : Label.split? text with
  | none =>
      simp only [hsplit] at h hlabel ⊢
      obtain ⟨name, hname, hmain⟩ := Result.do_eq_ok_iff.1 h
      have hne := Settings.trim_ne_empty_of_checkedTable hname
      rw [← Result.pure_eq_ok_iff.1 hmain, Settings.checkedTable_eq_ok hname]
      simp only [Declaration.text_none, Declaration.reference_none, Settings.quoteTable]
      exact ⟨⟨hne, hlabel⟩, trivial, trivial⟩
  | some parts =>
      simp only [hsplit] at h htrim hlabel ⊢
      obtain ⟨name, hname, hmain⟩ := Result.do_eq_ok_iff.1 h
      have hne := Settings.trim_ne_empty_of_checkedTable hname
      rw [← Result.pure_eq_ok_iff.1 hmain, Settings.checkedTable_eq_ok hname]
      rw [htrim] at hne ⊢
      simp only [Declaration.text_some, Declaration.reference_some, Settings.quoteTable,
        Fragment.text_labelled]
      exact ⟨⟨hne, hlabel⟩, trivial, trivial⟩

namespace Query

def main (q : Query) : Declaration := .ofText q.table

def declarations (q : Query) : List Declaration := q.main :: q.joins.map .ofJoin

/-- The left side of a pair refers to a declared table. -/
structure IsLeftSide (s : Settings) (q : Query) (left side : String) : Prop where
  plain (h : '.' ∉ left.toList) : side = q.main.reference s ++ "." ++ s.quoteName left
  qualified {d : Declaration} {name column : String} (hd : d ∈ q.declarations)
    (hname : d.IsNamed name) (hmarker : name.toList.head? ≠ some '#')
    (hleft : left = name ++ "." ++ column)
    (hstar : s.tablePrefix = "" ∨ Identifier.beforeStar? column = none) :
    side = d.reference s ++ "." ++ (Identifier.ofTail column).toSql.text s

end Query

namespace Join

/-- The join is made from a text, or from a key with a sign before the text. -/
def IsRead (j : Join) : Prop :=
  (∃ kind text relation, j = ofTable kind text relation) ∨
    ∃ key relation, ofKey key relation = .ok j

def relationText (s : Settings) (side : String → String) (j : Join) : String :=
  match j.relation with
  | .shared columns => "USING (" ++ ", ".intercalate (columns.map s.quoteName) ++ ")"
  | .pairs columns =>
      "ON " ++ " AND ".intercalate (columns.map fun (left, right) =>
        side left ++ " = " ++ (Declaration.ofJoin j).reference s ++ "." ++ s.quoteName right)

def text (s : Settings) (side : String → String) (j : Join) : String :=
  " " ++ j.kind.keyword ++ " " ++ (Declaration.ofJoin j).text s ++ " " ++ j.relationText s side

end Join

namespace Query

theorem isLeftSide_leftSide {s : Settings} {q : Query} {main : Fragment}
    (hmain : main.text s = q.main.reference s) (hvalid : ∀ d ∈ q.declarations, d.IsValid)
    (left : String) : q.IsLeftSide s left ((Join.leftSide s main left).text s) where
  plain h := by
    have hdotted : left.toList.contains '.' = false := by simpa using h
    rw [Join.leftSide, hdotted, Bool.false_and, if_neg Bool.false_ne_true, Fragment.text_append,
      hmain, Fragment.text_cons_code, ← String.append_assoc]
    rfl
  qualified {d name column} hd hname hmarker hleft hstar := by
    have hdotted : left.toList.contains '.' = true := by simp [hleft]
    have hhead : left.toList.head? ≠ some '.' := by
      obtain ⟨c, cs, hcs⟩ := List.exists_cons_of_ne_nil
        (mt String.toList_eq_nil_iff.1 (hname.ne_empty (hvalid d hd)))
      have hc : '.' ∉ c :: cs := hcs ▸ hname.not_mem (hvalid d hd)
      rw [hleft]
      simp only [String.toList_append, hcs, List.cons_append, List.head?_cons, ne_eq,
        Option.some.injEq]
      exact fun heq => hc (heq ▸ List.mem_cons_self)
    rw [Join.leftSide, hdotted, Bool.true_and, if_pos (decide_eq_true hhead), hleft,
      hname.reference_eq]
    exact Settings.quoteColumn_append hmarker (hname.not_mem (hvalid d hd)) hstar

end Query

namespace Join

variable {s : Settings} {j : Join}

theorem ofJoin_ofTable (kind : JoinKind) (text : String) (relation : Relation) :
    Declaration.ofJoin (ofTable kind text relation) = .ofText text := by
  unfold ofTable Declaration.ofText
  cases Label.split? text <;> rfl

theorem exists_ofTable_of_ofKey {key : String} {relation : Relation}
    (h : ofKey key relation = .ok j) : ∃ kind text, j = ofTable kind text relation := by
  unfold ofKey at h
  split at h
  · next join hjoin =>
      obtain rfl := Except.ok.inj h
      simp only [ofKey?, Option.bind_eq_bind, Option.bind_eq_some_iff] at hjoin
      obtain ⟨⟨sign, table⟩, -, kind, -, htable⟩ := hjoin
      split at htable
      · cases htable
      · exact ⟨kind, table, (Option.some.inj htable).symm⟩
  · simp [fault] at h

theorem IsRead.exists_ofText (h : j.IsRead) : ∃ text, Declaration.ofJoin j = .ofText text := by
  obtain ⟨kind, text, relation, rfl⟩ | ⟨key, relation, hkey⟩ := h
  · exact ⟨text, ofJoin_ofTable kind text relation⟩
  · obtain ⟨kind, text, rfl⟩ := exists_ofTable_of_ofKey hkey
    exact ⟨text, ofJoin_ofTable kind text relation⟩

theorem text_equation (s : Settings) (left joined : Fragment) (right : String) :
    Fragment.text s (left ++ .code " = " :: joined ++ [.code ".", .name right]) =
      left.text s ++ " = " ++ joined.text s ++ "." ++ s.quoteName right := by
  simp only [Fragment.text_append, Fragment.text_cons_code, Fragment.text_name, List.append_assoc,
    List.cons_append, String.append_assoc]

theorem reference_ofJoin (s : Settings) (j : Join) :
    (Declaration.ofJoin j).reference s = (s.table j.reference).text s := by
  unfold Declaration.ofJoin reference
  cases j.label with
  | none => rfl
  | some label => rfl

theorem relationSql_eq_ok {main f : Fragment} (h : j.relationSql s main = .ok f) :
    f.text s = j.relationText s fun left => (leftSide s main left).text s := by
  unfold relationSql at h
  unfold relationText
  split at h
  · simp [fault] at h
  · simp [fault] at h
  · next columns _ hrelation =>
      rw [hrelation, ← Except.ok.inj h, Fragment.text_append, Fragment.text_code]
      simp only [Fragment.text_cons_code, Fragment.text_join, List.map_map, Function.comp_def,
        Fragment.text_name]
  · next columns _ hrelation =>
      rw [hrelation, ← Except.ok.inj h]
      simp only [Fragment.text_cons_code, Fragment.text_join, List.map_map, Function.comp_def,
        text_equation, reference_ofJoin]

theorem toSql_eq_ok {main f : Fragment} (hj : j.IsRead) (h : j.toSql s main = .ok f) :
    (Declaration.ofJoin j).IsValid ∧
      f.text s = j.text s fun left => (leftSide s main left).text s := by
  obtain ⟨text, htext⟩ := hj.exists_ofText
  obtain ⟨htrim, hlabel⟩ := Declaration.trim_ofText text
  rw [← htext] at htrim hlabel
  obtain ⟨table, htable, h⟩ := Result.do_eq_ok_iff.1 h
  have hne := Settings.trim_ne_empty_of_checkedTable htable
  have htable := Settings.checkedTable_eq_ok htable
  rw [show Text.trim j.table = j.table from htrim] at hne htable
  obtain ⟨relation, hrelation, h⟩ := Result.do_eq_ok_iff.1 h
  rw [← Result.pure_eq_ok_iff.1 h]
  refine ⟨⟨hne, hlabel⟩, ?_⟩
  have htarget : Fragment.text s (match j.label with
      | some label => table.labelled (s.table label)
      | none => table) = (Declaration.ofJoin j).text s := by
    rw [htable]
    unfold Declaration.ofJoin
    cases j.label with
    | none => rfl
    | some label => exact Fragment.text_labelled s _ _
  rw [Join.text, ← htarget, ← relationSql_eq_ok hrelation]
  simp only [Fragment.text_cons_code, Fragment.text_append, String.append_assoc]
  rfl

theorem mapM_toSql_eq_ok {main : Fragment} {joins : List Join} {fragments : List Fragment}
    (hjoins : ∀ j ∈ joins, j.IsRead) (h : joins.mapM (toSql s main) = .ok fragments) :
    (∀ j ∈ joins, (Declaration.ofJoin j).IsValid) ∧ Fragment.text s fragments.flatten =
      String.join (joins.map (text s fun left => (leftSide s main left).text s)) := by
  rw [Result.mapM_eq_ok_iff] at h
  induction h with
  | nil => exact ⟨List.forall_mem_nil _, rfl⟩
  | cons hj _ ih =>
      rw [List.forall_mem_cons] at hjoins
      obtain ⟨hvalid, htext⟩ := toSql_eq_ok hjoins.1 hj
      obtain ⟨hvalids, htexts⟩ := ih hjoins.2
      refine ⟨List.forall_mem_cons.2 ⟨hvalid, hvalids⟩, ?_⟩
      rw [List.flatten_cons, Fragment.text_append, htext, htexts, List.map_cons, String.join_cons]

end Join

namespace Builder

/-- A selection declares its main table and its joined tables, and the pairs of its joins refer to
what is declared: the right columns to the joined table, left columns without a point to the main
table, and a left column behind the name of a table to that table. -/
theorem select_refers_to_declarations {b : Builder} {q : Query} {sql : String}
    (hjoins : ∀ j ∈ q.joins, j.IsRead) (h : b.select q = .ok sql) :
    ∃ projection clauses side, (∀ left, q.IsLeftSide b.settings left (side left)) ∧
      sql = "SELECT " ++ projection ++ " FROM " ++ q.main.text b.settings ++
        String.join (q.joins.map (Join.text b.settings side)) ++ clauses := by
  obtain ⟨f, hf, rfl⟩ := exists_of_write h
  simp only [Query.selectSql, Result.do_eq_ok_iff, Result.pure_eq_ok_iff] at hf
  obtain ⟨main, hmain, projection, -, joins, hmapM, clauses, -, rfl⟩ := hf
  obtain ⟨hvalid, hexpression, hreference⟩ := MainTable.ofName_eq_ok hmain
  obtain ⟨hvalids, htexts⟩ := Join.mapM_toSql_eq_ok hjoins hmapM
  refine ⟨projection.text b.settings, clauses.text b.settings,
    fun left => (Join.leftSide b.settings main.reference left).text b.settings,
    Query.isLeftSide_leftSide hreference ?_, ?_⟩
  · exact List.forall_mem_cons.2 ⟨hvalid, List.forall_mem_map.2 hvalids⟩
  · simp only [Fragment.text_append, Fragment.text_cons_code, htexts, hexpression, Query.main,
      String.append_assoc]

def underPrefix : Builder := ⟨{ dialect := .mysql, tablePrefix := "wp_" }, rfl⟩

/-- Two tables with labels, and a left column that may be qualified by one of them. -/
def usersWithRoles (left : String) : Query where
  table := " users(u) "
  joins := [.ofTable .inner "roles (r)" (.pairs [("role", "id"), (left, "b")])]

theorem select_refers_to_declarations_labelled :
    underPrefix.select (usersWithRoles "u.a.b") =
        .ok ("SELECT * FROM \"wp_users\" AS \"wp_u\" INNER JOIN \"wp_roles\" AS \"wp_r\" ON " ++
          "\"wp_u\".\"role\" = \"wp_r\".\"id\" AND \"wp_u\".\"a\".\"b\" = \"wp_r\".\"b\"") ∧
      ∃ projection clauses side, side "role" = "\"wp_u\".\"role\"" ∧
        side "u.a.b" = "\"wp_u\".\"a\".\"b\"" ∧
        "SELECT * FROM \"wp_users\" AS \"wp_u\" INNER JOIN \"wp_roles\" AS \"wp_r\" ON " ++
            "\"wp_u\".\"role\" = \"wp_r\".\"id\" AND \"wp_u\".\"a\".\"b\" = \"wp_r\".\"b\"" =
          "SELECT " ++ projection ++ " FROM " ++
            (Query.main (usersWithRoles "u.a.b")).text underPrefix.settings ++
            String.join ((usersWithRoles "u.a.b").joins.map
              (Join.text underPrefix.settings side)) ++ clauses := by
  have hselect : underPrefix.select (usersWithRoles "u.a.b") =
      .ok ("SELECT * FROM \"wp_users\" AS \"wp_u\" INNER JOIN \"wp_roles\" AS \"wp_r\" ON " ++
        "\"wp_u\".\"role\" = \"wp_r\".\"id\" AND \"wp_u\".\"a\".\"b\" = \"wp_r\".\"b\"") := by
    decide +kernel
  obtain ⟨projection, clauses, side, hside, hsql⟩ := select_refers_to_declarations
    (fun j hj => .inl ⟨.inner, "roles (r)", _, List.mem_singleton.1 hj⟩) hselect
  have hnamed : (Query.main (usersWithRoles "u.a.b")).IsNamed "u" := rfl
  refine ⟨hselect, projection, clauses, side, ?_, ?_, hsql⟩
  · exact ((hside "role").plain (by decide)).trans (by decide +kernel)
  · exact ((hside "u.a.b").qualified List.mem_cons_self hnamed (by decide)
      (show "u.a.b" = "u" ++ "." ++ "a.b" by decide) (.inr (by decide))).trans (by decide +kernel)

/-- The table before a final `.*` may be qualified by a database, which takes no prefix. A label
that stands in its place refers to nothing that is declared. -/
theorem select_behind_star :
    (Query.main (usersWithRoles "u.a.*")).IsNamed "u" ∧ "u".toList.head? ≠ some '#' ∧
      "u.a.*" = "u" ++ "." ++ "a.*" ∧
      (Query.main (usersWithRoles "u.a.*")).reference underPrefix.settings = "\"wp_u\"" ∧
      underPrefix.select (usersWithRoles "u.a.*") =
        .ok ("SELECT * FROM \"wp_users\" AS \"wp_u\" INNER JOIN \"wp_roles\" AS \"wp_r\" ON " ++
          "\"wp_u\".\"role\" = \"wp_r\".\"id\" AND \"u\".\"wp_a\".* = \"wp_r\".\"b\"") ∧
      ∀ rest, "\"u\".\"wp_a\".*" ≠ "\"wp_u\"" ++ "." ++ rest := by
  refine ⟨rfl, by decide, by decide, by decide +kernel, by decide +kernel, fun rest h => ?_⟩
  have hsecond := congrArg (·.toList[1]?) h
  simp at hsecond

end Builder

end KeyedQuery
