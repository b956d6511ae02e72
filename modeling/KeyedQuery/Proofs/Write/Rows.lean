import KeyedQuery.Builder
import KeyedQuery.Proofs.Clause.Filter
import KeyedQuery.Proofs.Condition.TopLevel
import KeyedQuery.Proofs.Entries
import KeyedQuery.Proofs.Result
import Mathlib.Data.List.Perm.Subperm

/-!
# Rows in one statement

One statement inserts all rows where each of them has the keys of the first one and has a statement
of its own. What it says is what these statements say of the rows in the order of the first one: the
table and the columns, which they share, and then the values of every row, each under its column.
-/

namespace KeyedQuery

theorem Fragment.text_join (s : Settings) (separator : String) (fragments : List Fragment) :
    (join separator fragments).text s = separator.intercalate (fragments.map (text s)) := by
  rw [← String.toList_inj, toList_text, String.toList_intercalate, List.map_map]
  induction fragments with
  | nil => rfl
  | cons f rest ih =>
      cases rest with
      | nil => simp
      | cons g rest =>
          rw [join_cons_cons, chars_append, chars_cons, ih]
          simp [Piece.chars, List.intercalate]

/-! ## Rows in the order of another one -/

namespace Record

variable {r first : Record} {keys : List String}

theorem mem_keys_iff {key : String} : key ∈ r.keys ↔ ∃ v, r.get? key = some v := by
  rw [keys, ← Entries.get?_isSome_iff, Option.isSome_iff_exists]
  rfl

theorem keys_nodup (r : Record) : r.keys.Nodup := r.nodup_keys

theorem isEmpty_keys (r : Record) : r.keys.isEmpty = r.isEmpty := List.isEmpty_map

/-- The row has the keys of the list, in any order, and no others. -/
def HasKeys (r : Record) (keys : List String) : Prop := ∀ key, key ∈ r.keys ↔ key ∈ keys

/-- A row that is as long as a list of distinct keys and has each of them has no other key. -/
theorem hasKeys_iff (hkeys : keys.Nodup) :
    r.HasKeys keys ↔ r.size = keys.length ∧ keys ⊆ r.keys := by
  have hsize : r.size = r.keys.length := (List.length_map Prod.fst).symm
  constructor
  · intro h
    have hperm := (List.perm_ext_iff_of_nodup r.keys_nodup hkeys).2 h
    exact ⟨hsize.trans hperm.length_eq, hperm.symm.subset⟩
  · rintro ⟨hlength, hsub⟩ key
    -- Both lists are distinct, so of two of one length none can hold a key more.
    have hperm := (hkeys.subperm hsub).perm_of_length_le (by omega)
    exact hperm.mem_iff.symm

theorem keys_sublist_of_present (r first : Record) :
    (Entries.keys (Entries.present (first.keys.map fun key => (key, r.get? key)))).Sublist
      first.keys := by
  have hkeys : Entries.keys (first.keys.map fun key => (key, r.get? key)) = first.keys := by
    rw [Entries.keys, List.map_map]
    exact List.map_id first.keys
  have hsub := Entries.keys_present_sublist (first.keys.map fun key => (key, r.get? key))
  rwa [hkeys] at hsub

/-- The row with its entries in the order in which another one has their keys. -/
def alignedTo (r first : Record) : Record where
  entries := Entries.present (first.keys.map fun key => (key, r.get? key))
  nodup_keys := (keys_sublist_of_present r first).nodup first.nodup_keys

section

variable (h : r.HasKeys first.keys)
include h

theorem get?_alignedTo (key : String) : (r.alignedTo first).get? key = r.get? key := by
  refine Option.ext fun v => ?_
  rw [get?, Entries.get?_eq_some_iff (r.alignedTo first).nodup_keys]
  simp only [alignedTo, Entries.mem_present, List.mem_map, Prod.mk.injEq]
  constructor
  · rintro ⟨other, -, rfl, hv⟩
    exact hv
  · intro hv
    exact ⟨key, (h key).1 (mem_keys_iff.2 ⟨v, hv⟩), rfl, hv⟩

theorem perm_alignedTo : (r.alignedTo first).entries.Perm r.entries :=
  Entries.perm_of_get?_eq (r.alignedTo first).nodup_keys r.nodup_keys (get?_alignedTo h)

theorem keys_perm : r.keys.Perm first.keys :=
  (List.perm_ext_iff_of_nodup r.keys_nodup first.keys_nodup).2 h

theorem keys_alignedTo : (r.alignedTo first).keys = first.keys := by
  have hrow : (r.alignedTo first).keys.Perm r.keys := (perm_alignedTo h).map Prod.fst
  exact (keys_sublist_of_present r first).eq_of_length (hrow.trans (keys_perm h)).length_eq

theorem isEmpty_eq : r.isEmpty = first.isEmpty := by
  rw [← isEmpty_keys, ← isEmpty_keys, (keys_perm h).isEmpty_eq]

end

/-! ## The values of a row -/

theorem isOk_valueAt_iff {row : Nat} {key : String} :
    (r.valueAt row key).isOk = true ↔ ∃ v, r.get? key = some v ∧ (literal key v).isOk = true := by
  unfold valueAt
  cases r.get? key with
  | none => simp [fault, Except.isOk, Except.toBool]
  | some v => simp

theorem valuesSql_eq (r : Record) (row : Nat) :
    r.valuesSql =
      (r.keys.mapM (r.valueAt row)).map fun values => (Fragment.join ", " values).parens := by
  rw [keys, Entries.keys, List.mapM_map]
  refine congrArg (Except.map _) (Result.mapM_congr fun e he => ?_)
  have hvalue : r.get? e.1 = some e.2 := (Entries.get?_eq_some_iff r.nodup_keys).2 he
  rw [Function.comp_apply, valueAt, hvalue]

/-- The values of a row in the order of another one are the values of the row put in that order. -/
theorem tupleSql_eq_valuesSql (h : r.HasKeys first.keys) (row : Nat) :
    r.tupleSql first.keys row = (r.alignedTo first).valuesSql := by
  have hsize : r.size = first.keys.length := ((hasKeys_iff first.keys_nodup).1 h).1
  rw [tupleSql, if_pos hsize, valuesSql_eq _ row, keys_alignedTo h]
  refine congrArg (Except.map _) (Result.mapM_congr fun key _ => ?_)
  rw [valueAt, valueAt, get?_alignedTo h]

/-- A row has values in the order of given keys exactly if it has these keys and no others, and has
values in its own order. -/
theorem isOk_tupleSql_iff (hkeys : keys.Nodup) (row : Nat) :
    (r.tupleSql keys row).isOk = true ↔ r.HasKeys keys ∧ r.valuesSql.isOk = true := by
  rw [hasKeys_iff hkeys, valuesSql_eq r row, Result.isOk_map, Result.isOk_mapM, tupleSql]
  constructor
  · intro h
    split at h
    · next hsize =>
        rw [Result.isOk_map, Result.isOk_mapM] at h
        have hsub : keys ⊆ r.keys := fun key hkey =>
          have ⟨v, hv, _⟩ := isOk_valueAt_iff.1 (h key hkey)
          mem_keys_iff.2 ⟨v, hv⟩
        have hmem := (hasKeys_iff hkeys).2 ⟨hsize, hsub⟩
        exact ⟨⟨hsize, hsub⟩, fun key hkey => h key ((hmem key).1 hkey)⟩
    · simp [fault, Except.isOk, Except.toBool] at h
  · rintro ⟨⟨hsize, hsub⟩, h⟩
    rw [if_pos hsize, Result.isOk_map, Result.isOk_mapM]
    exact fun key hkey => h key (hsub hkey)

/-- The texts are those of the values that a row has under the keys, one for each of them. -/
def Literals (s : Settings) (keys : List String) (r : Record) (literals : List String) : Prop :=
  List.Forall₂
    (fun key t => ∃ v, r.get? key = some v ∧ (literal key v).map (Fragment.text s) = .ok t)
    keys literals

def tupleText (literals : List String) : String := "(" ++ ", ".intercalate literals ++ ")"

theorem exists_literals (s : Settings) {row : Nat} {f : Fragment}
    (h : r.tupleSql keys row = .ok f) :
    ∃ literals, Literals s keys r literals ∧ f.text s = tupleText literals := by
  unfold tupleSql at h
  split at h
  · obtain ⟨values, hvalues, rfl⟩ := Result.map_eq_ok_iff.1 h
    refine ⟨values.map (Fragment.text s), ?_, ?_⟩
    · rw [Literals, List.forall₂_map_right_iff]
      refine (Result.mapM_eq_ok_iff.1 hvalues).imp fun key f hf => ?_
      unfold valueAt at hf
      split at hf
      · next v hv => exact ⟨v, hv, by rw [hf]; rfl⟩
      · simp [fault] at hf
    · rw [Fragment.text_parens, Fragment.text_join]
      rfl
  · simp [fault] at h

end Record

/-! ## Insertions -/

namespace Insertion

variable {s : Settings} {i : Insertion} {first : Record} {rest : List Record}

def alignedTo (i : Insertion) (first : Record) : Insertion :=
  { i with rows := i.rows.map fun row => row.alignedTo first }

/-- What the statements of rows under the keys have in common. -/
def headText (s : Settings) (i : Insertion) (keys : List String) : String :=
  i.verb.text ++ " INTO " ++ s.quoteTable (Text.trim i.table) ++ " (" ++
    ", ".intercalate (keys.map s.quoteColumn) ++ ")"

theorem headSql_eq_ok {head : Fragment} (h : i.headSql s = .ok head) :
    head = .code (i.verb.text ++ " INTO ") :: s.table (Text.trim i.table) := by
  unfold headSql at h
  obtain ⟨table, htable, h⟩ := Result.do_eq_ok_iff.1 h
  rw [Settings.checkedTable_eq_ok htable] at h
  split at h
  · simp [fault] at h
  · split at h
    · simp [Dialect.lacks] at h
    · exact (Except.ok.inj h).symm

/-- What stands before the columns does not depend on the order within rows. -/
theorem headSql_alignedTo (i : Insertion) (first : Record) (s : Settings) :
    (i.alignedTo first).headSql s = i.headSql s := by
  unfold headSql alignedTo
  rw [List.isEmpty_map]

theorem isOk_tuplesSql_iff {keys : List String} (hkeys : keys.Nodup) (row : Nat)
    {rows : List Record} :
    (tuplesSql keys row rows).isOk = true ↔
      ∀ r ∈ rows, r.HasKeys keys ∧ r.valuesSql.isOk = true := by
  induction rows generalizing row with
  | nil => simp [tuplesSql, Except.isOk, Except.toBool]
  | cons r rest ih =>
      rw [List.forall_mem_cons, ← Record.isOk_tupleSql_iff hkeys row, ← ih (row + 1)]
      simp only [Result.isOk_iff, tuplesSql, Result.do_eq_ok_iff, Result.pure_eq_ok_iff]
      constructor
      · rintro ⟨_, t, ht, ts, hts, -⟩
        exact ⟨⟨t, ht⟩, ts, hts⟩
      · rintro ⟨⟨t, ht⟩, ts, hts⟩
        exact ⟨_, t, ht, ts, hts, rfl⟩

theorem tuplesSql_eq_mapM {row : Nat} {rows : List Record}
    (h : ∀ r ∈ rows, r.HasKeys first.keys) :
    tuplesSql first.keys row rows =
      (rows.map fun r => r.alignedTo first).mapM Record.valuesSql := by
  induction rows generalizing row with
  | nil => rfl
  | cons r rest ih =>
      rw [tuplesSql, Record.tupleSql_eq_valuesSql (h r List.mem_cons_self),
        ih fun r' hr' => h r' (List.mem_cons_of_mem _ hr'), List.map_cons, List.mapM_cons]

theorem exists_literals_of_tuplesSql (s : Settings) {keys : List String} {row : Nat}
    {rows : List Record} {tuples : List Fragment} (h : tuplesSql keys row rows = .ok tuples) :
    ∃ lists, List.Forall₂ (Record.Literals s keys) rows lists ∧
      tuples.map (Fragment.text s) = lists.map Record.tupleText := by
  induction rows generalizing row tuples with
  | nil =>
      obtain rfl : [] = tuples := Except.ok.inj h
      exact ⟨[], .nil, rfl⟩
  | cons r rest ih =>
      simp only [tuplesSql, Result.do_eq_ok_iff, Result.pure_eq_ok_iff] at h
      obtain ⟨t, ht, ts, hts, rfl⟩ := h
      obtain ⟨literals, hliterals, htext⟩ := Record.exists_literals s ht
      obtain ⟨lists, hlists, htexts⟩ := ih hts
      exact ⟨literals :: lists, .cons hliterals hlists, by rw [List.map_cons, htext, htexts]; rfl⟩

/-! ### The statement of a row -/

theorem rowSql_eq {head : Fragment} {row : Record} (h : row.isEmpty = false) :
    rowSql s head row = row.valuesSql.map fun values =>
      head ++ .code " " :: Record.columnsSql s row.keys ++ .code " VALUES " :: values := by
  rw [rowSql, h]
  rfl

theorem isOk_rowSql_iff {head : Fragment} {row : Record} :
    (rowSql s head row).isOk = true ↔ row.isEmpty = false ∧ row.valuesSql.isOk = true := by
  cases h : row.isEmpty with
  | true => simp [rowSql, h, fault, Except.isOk, Except.toBool]
  | false => rw [rowSql_eq h, Result.isOk_map, eq_self, true_and]

theorem text_behind_columns {head : Fragment} (h : i.headSql s = .ok head) (keys : List String)
    (f : Fragment) :
    Fragment.text s
        (head ++ .code " " :: Record.columnsSql s keys ++ .code " VALUES " :: f) =
      i.headText s keys ++ " VALUES " ++ f.text s := by
  have hcolumns : (Record.columnsSql s keys).text s =
      "(" ++ ", ".intercalate (keys.map s.quoteColumn) ++ ")" := by
    rw [Record.columnsSql, Fragment.text_parens, Fragment.text_join, List.map_map]
    rfl
  have hlist := congrArg String.toList hcolumns
  rw [Fragment.toList_text] at hlist
  rw [headSql_eq_ok h, ← String.toList_inj]
  simp [headText, Settings.quoteTable, Piece.chars, hlist]

theorem eachSql_alignedTo {head : Fragment} {tuples : List Fragment}
    (hhead : i.headSql s = .ok head) (hfirst : first.isEmpty = false)
    (hkeys : ∀ row ∈ i.rows, row.HasKeys first.keys)
    (htuples : (i.rows.map fun row => row.alignedTo first).mapM Record.valuesSql = .ok tuples) :
    (i.alignedTo first).eachSql s = .ok (tuples.map fun values =>
      head ++ .code " " :: Record.columnsSql s first.keys ++ .code " VALUES " :: values) := by
  rw [eachSql, headSql_alignedTo, hhead]
  refine Result.mapM_eq_ok_iff.2 ?_
  rw [Result.mapM_eq_ok_iff, List.forall₂_map_left_iff] at htuples
  rw [alignedTo, List.forall₂_map_left_iff, List.forall₂_map_right_iff]
  refine ((List.forall₂_and_left _ _).2 ⟨hkeys, htuples⟩).imp fun row values ⟨hrow, hvalues⟩ => ?_
  have hne : (row.alignedTo first).isEmpty = false := by
    rw [← Record.isEmpty_keys, Record.keys_alignedTo hrow, Record.isEmpty_keys, hfirst]
  rw [rowSql_eq hne, hvalues, Record.keys_alignedTo hrow]
  rfl

/-! ### All rows at once -/

theorem togetherSql_eq (h : i.rows = first :: rest) (hfirst : first.isEmpty = false) :
    i.togetherSql s = do
      let head ← i.headSql s
      let tuples ← tuplesSql first.keys 0 i.rows
      return head ++ .code " " :: Record.columnsSql s first.keys ++ .code " VALUES " ::
        Fragment.join ", " tuples := by
  have hkeys : first.keys.isEmpty = false := (Record.isEmpty_keys first).trans hfirst
  simp [togetherSql, h, hkeys]

theorem exists_rows_of_togetherSql {f : Fragment} (h : i.togetherSql s = .ok f) :
    ∃ first rest, i.rows = first :: rest ∧ first.isEmpty = false := by
  obtain ⟨head, -, h⟩ := Result.do_eq_ok_iff.1 h
  cases hrows : i.rows with
  | nil => simp [hrows, fault] at h
  | cons first rest =>
      refine ⟨first, rest, rfl, ?_⟩
      cases hfirst : first.isEmpty with
      | false => rfl
      | true => simp [hrows, fault, Record.isEmpty_keys, hfirst] at h

/-- All rows go into one statement exactly if the first one has a key, the others have the same
keys, and every row has a statement of its own. -/
theorem isOk_togetherSql_iff :
    (i.togetherSql s).isOk = true ↔ ∃ first rest, i.rows = first :: rest ∧
      first.isEmpty = false ∧ (∀ row ∈ i.rows, row.HasKeys first.keys) ∧
      (i.eachSql s).isOk = true := by
  constructor
  · intro h
    obtain ⟨f, hf⟩ := Result.isOk_iff.1 h
    obtain ⟨first, rest, hrows, hfirst⟩ := exists_rows_of_togetherSql hf
    rw [togetherSql_eq hrows hfirst] at hf
    obtain ⟨head, hhead, hf⟩ := Result.do_eq_ok_iff.1 hf
    obtain ⟨tuples, htuples, -⟩ := Result.do_eq_ok_iff.1 hf
    have hrow := (isOk_tuplesSql_iff first.keys_nodup 0).1 (Result.isOk_iff.2 ⟨_, htuples⟩)
    refine ⟨first, rest, hrows, hfirst, fun row hmem => (hrow row hmem).1, ?_⟩
    rw [eachSql, hhead]
    refine Result.isOk_mapM.2 fun row hmem => isOk_rowSql_iff.2 ⟨?_, (hrow row hmem).2⟩
    rw [Record.isEmpty_eq (hrow row hmem).1, hfirst]
  · rintro ⟨first, rest, hrows, hfirst, hkeys, h⟩
    obtain ⟨fs, hfs⟩ := Result.isOk_iff.1 h
    obtain ⟨head, hhead, hfs⟩ := Result.do_eq_ok_iff.1 hfs
    have hvalues : ∀ row ∈ i.rows, row.valuesSql.isOk = true := fun row hmem =>
      (isOk_rowSql_iff.1 (Result.isOk_mapM.1 (Result.isOk_iff.2 ⟨_, hfs⟩) row hmem)).2
    obtain ⟨tuples, htuples⟩ := Result.isOk_iff.1
      ((isOk_tuplesSql_iff first.keys_nodup 0).2 fun row hmem =>
        ⟨hkeys row hmem, hvalues row hmem⟩)
    rw [togetherSql_eq hrows hfirst, hhead, htuples]
    rfl

end Insertion

/-- All rows go into one statement exactly if there is a first row with a key, the others have the
same keys, and each row has a statement of its own. The statement of all rows is then what the
statements of the rows, put in the order of the first one, have in common, and behind it what they
do not share: the values of the rows, each of them under its column. -/
theorem Builder.multiInsert_refines_insert (b : Builder) (i : Insertion) :
    ((b.multiInsert i).isOk = true ↔ ∃ first rest, i.rows = first :: rest ∧
        first.isEmpty = false ∧ (∀ row ∈ i.rows, row.HasKeys first.keys) ∧
        (b.insert i).isOk = true) ∧
      ∀ first rest sql, i.rows = first :: rest → b.multiInsert i = .ok sql →
        (∀ row ∈ i.rows, (row.alignedTo first).keys = first.keys ∧
          (row.alignedTo first).entries.Perm row.entries) ∧
        ∃ lists : List (List String),
          List.Forall₂ (Record.Literals b.settings first.keys) i.rows lists ∧
          b.insert (i.alignedTo first) = .ok (lists.map fun literals =>
            i.headText b.settings first.keys ++ " VALUES " ++ Record.tupleText literals) ∧
          sql = i.headText b.settings first.keys ++ " VALUES " ++
            ", ".intercalate (lists.map Record.tupleText) := by
  constructor
  · rw [multiInsert, write, insert, Result.isOk_map, Insertion.isOk_togetherSql_iff]
    simp only [Result.isOk_map]
  · intro first rest sql hrows hsql
    obtain ⟨f, hf, rfl⟩ := exists_of_write hsql
    obtain ⟨first', rest', hrows', hfirst, hkeys, -⟩ :=
      Insertion.isOk_togetherSql_iff.1 (Result.isOk_iff.2 ⟨f, hf⟩)
    obtain ⟨rfl, rfl⟩ := List.cons.inj (hrows.symm.trans hrows')
    refine ⟨fun row hrow => ⟨Record.keys_alignedTo (hkeys row hrow),
      Record.perm_alignedTo (hkeys row hrow)⟩, ?_⟩
    rw [Insertion.togetherSql_eq hrows hfirst] at hf
    obtain ⟨head, hhead, hf⟩ := Result.do_eq_ok_iff.1 hf
    obtain ⟨tuples, htuples, hf⟩ := Result.do_eq_ok_iff.1 hf
    obtain rfl := Result.pure_eq_ok_iff.1 hf
    obtain ⟨lists, hlists, htext⟩ := Insertion.exists_literals_of_tuplesSql b.settings htuples
    rw [Insertion.tuplesSql_eq_mapM hkeys] at htuples
    refine ⟨lists, hlists, ?_, ?_⟩
    · have hstatements : b.insert (i.alignedTo first) =
          .ok ((tuples.map (Fragment.text b.settings)).map fun t =>
            i.headText b.settings first.keys ++ " VALUES " ++ t) := by
        rw [insert, Insertion.eachSql_alignedTo hhead hfirst hkeys htuples]
        simp only [Except.map, List.map_map]
        exact congrArg Except.ok (List.map_congr_left fun values _ =>
          Insertion.text_behind_columns hhead _ values)
      rw [hstatements, htext, List.map_map]
      rfl
    · rw [Insertion.text_behind_columns hhead, Fragment.text_join, htext]

theorem Builder.multiInsert_refines_insert_reordered :
    let b : Builder := ⟨⟨.mysql, .backtick, "p_"⟩, by decide⟩
    let first := Record.ofList [("a", .int 1), ("#b", .text "NOW()")]
    let second := Record.ofList [("#b", .text "it's"), ("a", .null)]
    let i : Insertion := { table := "t", rows := [first, second] }
    let sql := "INSERT INTO \x60p_t\x60 (\x60a\x60, \x60b\x60) VALUES (1, NOW()), (NULL, 'it''s')"
    b.multiInsert i = .ok sql ∧ (b.insert i).isOk = true ∧
      ∃ lists : List (List String),
        List.Forall₂ (Record.Literals b.settings first.keys) i.rows lists ∧
        b.insert (i.alignedTo first) = .ok (lists.map fun literals =>
          i.headText b.settings first.keys ++ " VALUES " ++ Record.tupleText literals) ∧
        sql = i.headText b.settings first.keys ++ " VALUES " ++
          ", ".intercalate (lists.map Record.tupleText) := by
  intro b first second i sql
  have hsql : b.multiInsert i = .ok sql := by decide +kernel
  have hrefines := multiInsert_refines_insert b i
  obtain ⟨_, _, _, _, _, hinsert⟩ := hrefines.1.1 (by rw [hsql]; rfl)
  exact ⟨hsql, hinsert, (hrefines.2 first [second] sql rfl hsql).2⟩

end KeyedQuery
