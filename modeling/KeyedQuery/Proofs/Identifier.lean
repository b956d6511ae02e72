import KeyedQuery.Sql.Fragment
import Mathlib.Data.List.Basic

/-!
# Columns of qualified tables

A column may be qualified by a table, `table.column`, and by a table with a database before it. Its
text should then be the text of the table, a point and the column. This holds of all columns of a
table, `table.*`, and of one column if the table has one segment or the settings have no prefix.
Otherwise the prefix stands in front of the database in the column, and in front of the table where
the table is named itself.
-/

namespace KeyedQuery

/-! ## Segments -/

namespace Text

variable {p : Char → Bool}

theorem splitOnP_eq_singleton {cs : List Char} (h : ∀ c ∈ cs, p c = false) :
    splitOnP p cs = [cs] := by
  induction cs with
  | nil => rfl
  | cons c cs ih =>
      rw [List.forall_mem_cons] at h
      simp [splitOnP, h.1, ih h.2]

theorem splitOnP_append_cons {c : Char} (hc : p c = true) (cs ds : List Char) :
    splitOnP p (cs ++ c :: ds) = splitOnP p cs ++ splitOnP p ds := by
  induction cs with
  | nil => simp [splitOnP, hc]
  | cons b cs ih =>
      rw [List.cons_append, splitOnP, splitOnP, ih]
      by_cases hb : p b = true
      · simp [hb]
      · obtain ⟨piece, pieces, hsplit⟩ := List.exists_cons_of_ne_nil (splitOnP_ne_nil p cs)
        simp [hb, hsplit]

end Text

namespace Identifier

theorem segments_of_not_mem {name : String} (h : '.' ∉ name.toList) : segments name = [name] := by
  have hsplit : Text.splitOnP (· == '.') name.toList = [name.toList] :=
    Text.splitOnP_eq_singleton fun c hc => by
      simpa using fun heq : c = '.' => h (heq ▸ hc)
  simp [segments, hsplit]

theorem segments_append_point (table column : String) :
    segments (table ++ "." ++ column) = segments table ++ segments column := by
  have htoList : (table ++ "." ++ column).toList = table.toList ++ '.' :: column.toList := by
    simp
  rw [segments, segments, segments, htoList, Text.splitOnP_append_cons (by rfl), List.map_append]

theorem segments_ne_nil (name : String) : segments name ≠ [] := by
  simpa [segments] using Text.splitOnP_ne_nil (· == '.') name.toList

theorem exists_segments_of_mem {name : String} (h : '.' ∈ name.toList) :
    ∃ first second rest, segments name = first :: second :: rest := by
  obtain ⟨before, after, hname⟩ := List.append_of_mem h
  have hsplit : segments name =
      segments (String.ofList before) ++ segments (String.ofList after) := by
    rw [← segments_append_point, ← String.ofList_toList (s := name), hname]
    simp [String.ofList_append, String.append_assoc]
  obtain ⟨first, pieces, hfirst⟩ := List.exists_cons_of_ne_nil (segments_ne_nil (.ofList before))
  obtain ⟨last, others, hlast⟩ := List.exists_cons_of_ne_nil (segments_ne_nil (.ofList after))
  rw [hsplit, hfirst, hlast]
  cases pieces with
  | nil => exact ⟨first, last, others, rfl⟩
  | cons second pieces => exact ⟨first, second, pieces ++ last :: others, rfl⟩

/-! ## Qualified columns -/

variable {table column tablePrefix : String}

theorem splitMarker_append (h : table.toList.head? ≠ some '#') (rest : String) :
    splitMarker (table ++ "." ++ rest) = (false, table ++ "." ++ rest) := by
  unfold splitMarker
  split
  · next cs hcs =>
      refine absurd ?_ h
      cases htable : table.toList with
      | nil => simp [htable] at hcs
      | cons c cs' => simpa [htable] using (List.cons.inj (by simpa [htable] using hcs)).1
  · rfl

theorem append_point_ne_star (table column : String) : table ++ "." ++ column ≠ "*" := by
  intro h
  have hmem : '.' ∈ (table ++ "." ++ column).toList := by simp
  rw [h] at hmem
  simp at hmem

theorem beforeStar?_append_star (table : String) : beforeStar? (table ++ ".*") = some table := by
  have htoList : (table ++ ".*").toList = table.toList ++ ['.', '*'] := by simp
  have hsuffix : ['.', '*'].isSuffixOf? (table.toList ++ ['.', '*']) = some table.toList :=
    List.isSuffixOf?_eq_some_iff_append_eq.2 rfl
  rw [beforeStar?, htoList, hsuffix, Option.map_some, String.ofList_toList]

/-- No column without points but the star leaves a final `.*` behind its table. -/
theorem beforeStar?_append_point (hpoint : '.' ∉ column.toList) (hstar : column ≠ "*") :
    beforeStar? (table ++ "." ++ column) = none := by
  rw [beforeStar?, Option.map_eq_none_iff, Option.eq_none_iff_forall_ne_some]
  intro cs hcs
  have heq : cs ++ ['.', '*'] = table.toList ++ '.' :: column.toList := by
    simpa using List.isSuffixOf?_eq_some_iff_append_eq.1 hcs
  rcases List.eq_nil_or_concat column.toList with hnil | ⟨column', c, hcolumn⟩
  · rw [hnil, List.append_cons cs] at heq
    simpa using (List.append_inj' heq rfl).2
  · have hlast : cs ++ ['.'] ++ ['*'] = table.toList ++ '.' :: column' ++ [c] := by
      simpa [hcolumn] using heq
    obtain ⟨hinit, hc⟩ := List.append_inj' hlast rfl
    obtain rfl : '*' = c := by simpa using hc
    rcases List.eq_nil_or_concat column' with hnil | ⟨column'', d, hcolumn'⟩
    · exact hstar (String.toList_inj.1 (by simp [hcolumn, hnil]))
    · have hpoint' : cs ++ ['.'] = table.toList ++ '.' :: column'' ++ [d] := by
        simpa [hcolumn'] using hinit
      obtain rfl : '.' = d := by simpa using (List.append_inj' hpoint' rfl).2
      exact hpoint (by simp [hcolumn, hcolumn'])

theorem ofColumn_append_star (h : table.toList.head? ≠ some '#') :
    ofColumn (table ++ ".*") tablePrefix = ofTable table tablePrefix ++ [.star] := by
  have hsplit : table ++ ".*" = table ++ "." ++ "*" := by
    rw [String.append_assoc]
    rfl
  have hstar := beforeStar?_append_star table
  rw [hsplit] at hstar ⊢
  simp only [ofColumn, splitMarker_append h, if_neg (append_point_ne_star table "*"), hstar]

/-- A column of a table stands behind the segments of the table, the first of them under the
prefix. -/
theorem ofColumn_append_point (h : table.toList.head? ≠ some '#')
    (hpoint : '.' ∉ column.toList) (hstar : column ≠ "*") {first : String} {rest : List String}
    (hsegments : segments table = first :: rest) :
    ofColumn (table ++ "." ++ column) tablePrefix =
      .name (tablePrefix ++ first) :: rest.map .name ++ [.name column] := by
  have hall : segments (table ++ "." ++ column) = first :: (rest ++ [column]) := by
    rw [segments_append_point, hsegments, segments_of_not_mem hpoint, List.cons_append]
  simp only [ofColumn, splitMarker_append h, if_neg (append_point_ne_star table column),
    beforeStar?_append_point hpoint hstar]
  rw [hall]
  cases rest <;> simp

/-! ## Their texts -/

theorem toSql_cons (part : Part) {i : Identifier} (hi : i ≠ []) :
    toSql (part :: i) = part.piece :: .code "." :: i.toSql := by
  obtain ⟨next, i, rfl⟩ := List.exists_cons_of_ne_nil hi
  simp only [toSql, List.map_cons, Fragment.join_cons_cons, List.cons_append, List.nil_append]

theorem toSql_concat {i : Identifier} (hi : i ≠ []) (part : Part) :
    toSql (i ++ [part]) = i.toSql ++ [.code ".", part.piece] := by
  induction i with
  | nil => exact absurd rfl hi
  | cons first i ih =>
      rcases eq_or_ne i [] with rfl | hne
      · simp [toSql, Fragment.join_cons_cons]
      · rw [List.cons_append, toSql_cons first (by simp), ih hne, toSql_cons first hne]
        simp

theorem chars_toSql_cons (s : Settings) (text : String) {i : Identifier} (hi : i ≠ []) :
    (toSql (.name text :: i)).chars s =
      s.quoteStyle.opening :: text.toList ++ s.quoteStyle.closing :: '.' :: i.toSql.chars s := by
  rw [toSql_cons _ hi]
  simp [Part.piece, Piece.chars, QuoteStyle.quoteChars]

theorem exists_chars_toSql (s : Settings) (text : String) (i : Identifier) :
    ∃ tail, (toSql (.name text :: i)).chars s = s.quoteStyle.opening :: text.toList ++ tail := by
  rcases eq_or_ne i [] with rfl | hi
  · exact ⟨[s.quoteStyle.closing], by simp [toSql, Part.piece, Piece.chars, QuoteStyle.quoteChars]⟩
  · exact ⟨_, chars_toSql_cons s text hi⟩

theorem ofTable_ne_nil (table tablePrefix : String) : ofTable table tablePrefix ≠ [] := by
  unfold ofTable
  split
  · next h => exact absurd h (segments_ne_nil table)
  · simp
  · simp

end Identifier

/-! ## The table that a column names -/

/-- If two lists commute under concatenation, the one holds no more than the other, unless that is
empty. -/
theorem Text.subset_of_append_comm {cs ds : List Char} (hne : cs ≠ [])
    (h : cs ++ ds = ds ++ cs) : ds ⊆ cs := by
  rcases Nat.le_total ds.length cs.length with hle | hle
  · have hpre : ds <+: cs :=
      List.prefix_of_prefix_length_le (h ▸ List.prefix_append ds cs) (List.prefix_append cs ds) hle
    exact hpre.subset
  · obtain ⟨rest, hds⟩ : cs <+: ds :=
      List.prefix_of_prefix_length_le (List.prefix_append cs ds) (h ▸ List.prefix_append ds cs) hle
    have hpos := List.length_pos_iff.2 hne
    have hlength : rest.length < ds.length := by
      rw [← hds, List.length_append]
      omega
    have hrest : cs ++ rest = rest ++ cs := by
      rw [← hds, List.append_assoc] at h
      exact List.append_cancel_left h
    rw [← hds]
    exact List.append_subset.2 ⟨List.Subset.refl cs, subset_of_append_comm hne hrest⟩
termination_by ds.length

namespace Settings

variable {s : Settings} {table column : String}

open Identifier

theorem quoteColumn_append_star (hmarker : table.toList.head? ≠ some '#') :
    s.quoteColumn (table ++ ".*") = s.quoteTable table ++ ".*" := by
  rw [quoteColumn, Settings.column, ofColumn_append_star hmarker,
    toSql_concat (ofTable_ne_nil table s.tablePrefix), ← String.toList_inj]
  simp [quoteTable, Settings.table, Part.piece, Piece.chars]

theorem quoteColumn_append_point (hmarker : table.toList.head? ≠ some '#')
    (hpoint : '.' ∉ column.toList) (hstar : column ≠ "*") {first : String} {rest : List String}
    (hsegments : segments table = first :: rest) :
    s.quoteColumn (table ++ "." ++ column) =
      (toSql (.name (s.tablePrefix ++ first) :: rest.map .name)).text s ++ "." ++
        s.quoteName column := by
  rw [quoteColumn, Settings.column, ofColumn_append_point hmarker hpoint hstar hsegments,
    toSql_concat (by simp), ← String.toList_inj]
  simp [quoteName, ofName, toSql, Part.piece, Piece.chars]

/-- Where a table of one segment is named, or settings without a prefix are used, a column names the
same table. -/
theorem quoteColumn_eq (hmarker : table.toList.head? ≠ some '#')
    (hpoint : '.' ∉ column.toList) (hstar : column ≠ "*")
    (h : s.tablePrefix = "" ∨ '.' ∉ table.toList) :
    s.quoteColumn (table ++ "." ++ column) =
      s.quoteTable table ++ "." ++ s.quoteName column := by
  obtain ⟨first, rest, hsegments⟩ := List.exists_cons_of_ne_nil (segments_ne_nil table)
  rw [quoteColumn_append_point hmarker hpoint hstar hsegments, quoteTable, Settings.table]
  have htable : ofTable table s.tablePrefix =
      .name (s.tablePrefix ++ first) :: rest.map .name := by
    rw [ofTable, hsegments]
    rcases h with hpre | hpoints
    · cases rest <;> simp [hpre]
    · rw [segments_of_not_mem hpoints] at hsegments
      obtain ⟨rfl, rfl⟩ := List.cons.inj hsegments
      rfl
  rw [htable]

/-- Behind a database a prefix without the closing mark lets a column name another table. -/
theorem quoteColumn_ne (hmarker : table.toList.head? ≠ some '#')
    (hpoint : '.' ∉ column.toList) (hstar : column ≠ "*") (htable : '.' ∈ table.toList)
    (hpre : s.tablePrefix ≠ "") (hmark : s.quoteStyle.closing ∉ s.tablePrefix.toList) :
    s.quoteColumn (table ++ "." ++ column) ≠
      s.quoteTable table ++ "." ++ s.quoteName column := by
  obtain ⟨first, second, rest, hsegments⟩ := exists_segments_of_mem htable
  rw [quoteColumn_append_point hmarker hpoint hstar hsegments, quoteTable, Settings.table, ofTable,
    hsegments]
  intro heq
  have hchars := congrArg String.toList heq
  obtain ⟨tail, htail⟩ := exists_chars_toSql s second (rest.map .name)
  obtain ⟨tail', htail'⟩ := exists_chars_toSql s (s.tablePrefix ++ second)
    (rest.map fun segment => .name (s.tablePrefix ++ segment))
  simp only [String.toList_append, Fragment.toList_text, List.map_cons] at hchars
  rw [chars_toSql_cons s (s.tablePrefix ++ first) (by simp), htail,
    chars_toSql_cons s first (by simp), htail'] at hchars
  -- Behind the first mark both texts have the prefix and the same run `between`, in either order.
  let between := first.toList ++ [s.quoteStyle.closing, '.', s.quoteStyle.opening]
  have hwhole : s.tablePrefix.toList ++ between ++
        (second.toList ++ tail ++ '.' :: (s.quoteName column).toList) =
      between ++ s.tablePrefix.toList ++
        (second.toList ++ tail' ++ '.' :: (s.quoteName column).toList) := by
    simpa [between] using hchars
  have hswap : s.tablePrefix.toList ++ between = between ++ s.tablePrefix.toList :=
    (List.append_inj hwhole (by simp [Nat.add_comm])).1
  have hne : s.tablePrefix.toList ≠ [] := by simpa using hpre
  exact hmark (Text.subset_of_append_comm hne hswap (by simp [between]))

/-- A qualified column is written as its table, a point and the column, if the table has one segment
or there is no prefix; with a prefix in which no closing mark stands, only then. All columns of a
table are always written so. -/
theorem quoteColumn_of_qualified (s : Settings) (table column : String)
    (hmarker : table.toList.head? ≠ some '#') (hpoint : '.' ∉ column.toList)
    (hstar : column ≠ "*") :
    (s.tablePrefix = "" ∨ '.' ∉ table.toList →
        s.quoteColumn (table ++ "." ++ column) =
          s.quoteTable table ++ "." ++ s.quoteName column) ∧
      (s.quoteStyle.closing ∉ s.tablePrefix.toList →
        (s.quoteColumn (table ++ "." ++ column) =
            s.quoteTable table ++ "." ++ s.quoteName column ↔
          s.tablePrefix = "" ∨ '.' ∉ table.toList)) ∧
      s.quoteColumn (table ++ ".*") = s.quoteTable table ++ ".*" := by
  refine ⟨quoteColumn_eq hmarker hpoint hstar, fun hmark => ⟨fun heq => ?_, ?_⟩,
    quoteColumn_append_star hmarker⟩
  · by_contra hnot
    obtain ⟨hpre, htable⟩ := not_or.1 hnot
    exact quoteColumn_ne hmarker hpoint hstar (not_not.1 htable) hpre hmark heq
  · exact quoteColumn_eq hmarker hpoint hstar

theorem quoteColumn_of_qualified_at :
    (quoteColumn ⟨.mysql, .backtick, "wp_"⟩ ("users" ++ "." ++ "id") =
        quoteTable ⟨.mysql, .backtick, "wp_"⟩ "users" ++ "." ++
          quoteName ⟨.mysql, .backtick, "wp_"⟩ "id") ∧
      quoteColumn ⟨.mysql, .backtick, "wp_"⟩ ("main.users" ++ "." ++ "id") ≠
        quoteTable ⟨.mysql, .backtick, "wp_"⟩ "main.users" ++ "." ++
          quoteName ⟨.mysql, .backtick, "wp_"⟩ "id" ∧
      quoteColumn ⟨.mysql, .backtick, "wp_"⟩ ("main.users" ++ ".*") =
        quoteTable ⟨.mysql, .backtick, "wp_"⟩ "main.users" ++ ".*" := by
  have hone := quoteColumn_of_qualified ⟨.mysql, .backtick, "wp_"⟩ "users" "id" (by decide)
    (by decide) (by decide)
  have htwo := quoteColumn_of_qualified ⟨.mysql, .backtick, "wp_"⟩ "main.users" "id" (by decide)
    (by decide) (by decide)
  refine ⟨hone.1 (.inr (by decide)), fun heq => ?_, htwo.2.2⟩
  exact absurd ((htwo.2.1 (by decide)).1 heq) (by decide)

/-- Behind a database the prefix goes to the database in a column, and to the table in a table. -/
theorem quoteColumn_behind_database :
    "db.t".toList.head? ≠ some '#' ∧ '.' ∉ "c".toList ∧ "c" ≠ "*" ∧
      quoteColumn ⟨.mysql, .ansi, "wp_"⟩ ("db.t" ++ "." ++ "c") = "\"wp_db\".\"t\".\"c\"" ∧
      quoteTable ⟨.mysql, .ansi, "wp_"⟩ "db.t" ++ "." ++ quoteName ⟨.mysql, .ansi, "wp_"⟩ "c" =
        "\"db\".\"wp_t\".\"c\"" ∧
      quoteColumn ⟨.mysql, .ansi, "wp_"⟩ ("db.t" ++ "." ++ "c") ≠
        quoteTable ⟨.mysql, .ansi, "wp_"⟩ "db.t" ++ "." ++
          quoteName ⟨.mysql, .ansi, "wp_"⟩ "c" := by
  decide +kernel

end Settings

end KeyedQuery
