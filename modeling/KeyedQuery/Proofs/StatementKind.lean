import KeyedQuery.Builder
import KeyedQuery.Proofs.KeyGrammar
import KeyedQuery.Proofs.Result
import KeyedQuery.Session.Statement

/-!
# Kinds of statements

The kind of a statement is read off its text, which is all that a hook sees of it, and the reader
knows nothing of the operation that has written the text. What it reads is the first word, in any
case of letters. Every statement of a builder starts with code, and the first word of this code is
the one of its operation, whatever the settings and the arguments are.
-/

namespace KeyedQuery

namespace StatementKind

def isWordChar (c : Char) : Bool := c.isAlphanum || c == '_'

def ofWord (word : List Char) : StatementKind :=
  if Text.sameLetterChars word "SELECT".toList then select
  else if Text.sameLetterChars word "INSERT".toList ||
      Text.sameLetterChars word "REPLACE".toList then insert
  else if Text.sameLetterChars word "UPDATE".toList then update
  else if Text.sameLetterChars word "DELETE".toList then delete
  else other

variable {keyword word rest : List Char} {c : Char}

theorem isWordChar_of_isAlpha (h : c.isAlpha = true) : isWordChar c = true := by
  simp [isWordChar, Char.isAlphanum, h]

theorem isBlank_of_isWordChar (h : isWordChar c = true) : Text.isBlank c = false := by
  refine Label.isBlank_of_isNameChar (Label.isNameChar_of_isChar ?_)
  rw [Label.isChar, show (c.isAlphanum || c == '_') = true from h, Bool.true_or]

/-- A text starts with a keyword exactly if its first word is the keyword. -/
theorem startsWith_append (hkeyword : ∀ d ∈ keyword, d.toLower.isAlpha = true)
    (hword : ∀ c ∈ word, isWordChar c = true) (hrest : ∀ c ∈ rest.head?, isWordChar c = false) :
    startsWith keyword (word ++ rest) = Text.sameLetterChars word keyword := by
  have hlength {cs : List Char} (h : Text.sameLetterChars cs keyword = true) :
      cs.length = keyword.length := by
    simpa using congrArg List.length ((Text.sameLetterChars_eq_true_iff _ _).1 h)
  rw [Bool.eq_iff_iff, startsWith, Bool.and_eq_true, Bool.not_eq_true']
  constructor
  · rintro ⟨hsame, hend⟩
    rcases Nat.lt_trichotomy keyword.length word.length with hlt | heq | hgt
    · -- The word goes on behind the keyword.
      rw [List.drop_append_of_le_length hlt.le, List.head?_append,
        List.head?_drop, List.getElem?_eq_getElem hlt, Option.some_or, Option.any_some] at hend
      have hchar := hword _ (List.getElem_mem hlt)
      rw [isWordChar, hend] at hchar
      cases hchar
    · rwa [List.take_left' heq.symm] at hsame
    · -- The word ends within the keyword.
      rw [List.take_append, List.take_of_length_le hgt.le] at hsame
      cases rest with
      | nil =>
          have heq := hlength hsame
          simp only [List.take_nil, List.append_nil] at heq
          omega
      | cons c rest =>
          have hmem : c ∈ word ++ (c :: rest).take (keyword.length - word.length) := by
            rw [List.take_cons (by omega)]
            simp
          have halpha := Text.isAlpha_of_sameLetterChars hsame hkeyword c hmem
          have hchar := isWordChar_of_isAlpha halpha
          rw [hrest c rfl] at hchar
          cases hchar
  · intro hsame
    have heq := hlength hsame
    rw [List.take_left' heq, List.drop_left' heq]
    refine ⟨hsame, ?_⟩
    cases rest with
    | nil => rfl
    | cons c rest => exact hrest c rfl

/-- The first word of a text tells its kind. -/
theorem ofSql_append (hne : word ≠ []) (hword : ∀ c ∈ word, isWordChar c = true)
    (hrest : ∀ c ∈ rest.head?, isWordChar c = false) :
    ofSql (String.ofList (word ++ rest)) = ofWord word := by
  have htrim : Text.trimStartChars (word ++ rest) = word ++ rest := by
    refine Text.trimStartChars_eq_self fun c hc => isBlank_of_isWordChar (hword c ?_)
    rw [List.head?_append_of_ne_nil _ hne] at hc
    exact List.mem_of_mem_head? hc
  have hstarts {keyword : List Char} (hkeyword : keyword.all (fun d => d.toLower.isAlpha) = true) :
      startsWith keyword (word ++ rest) = Text.sameLetterChars word keyword :=
    startsWith_append (List.all_eq_true.1 hkeyword) hword hrest
  simp only [ofSql, String.toList_ofList, htrim]
  rw [hstarts (by decide), hstarts (by decide), hstarts (by decide), hstarts (by decide),
    hstarts (by decide), ofWord]

end StatementKind

/-! ## Statements of builders -/

/-- The fragment starts with code whose first word is one of the kind. -/
def Fragment.IsOfKind (k : StatementKind) (f : Fragment) : Prop :=
  ∃ head rest, f = .code head :: rest ∧
    head.toList.takeWhile StatementKind.isWordChar ≠ [] ∧
    head.toList.dropWhile StatementKind.isWordChar ≠ [] ∧
    StatementKind.ofWord (head.toList.takeWhile StatementKind.isWordChar) = k

namespace Fragment

variable {k : StatementKind} {f : Fragment} {s : Settings}

theorem IsOfKind.append (h : f.IsOfKind k) (g : Fragment) : IsOfKind k (f ++ g) := by
  obtain ⟨head, rest, rfl, hhead⟩ := h
  exact ⟨head, rest ++ g, rfl, hhead⟩

theorem IsOfKind.ofSql_text (h : f.IsOfKind k) (s : Settings) :
    StatementKind.ofSql (f.text s) = k := by
  obtain ⟨head, rest, rfl, hword, hgap, rfl⟩ := h
  obtain ⟨c, gap, hcons⟩ := List.exists_cons_of_ne_nil hgap
  have hchars : chars s (.code head :: rest) =
      head.toList.takeWhile StatementKind.isWordChar ++ c :: (gap ++ chars s rest) := by
    rw [chars_cons, Piece.chars, ← List.cons_append, ← hcons, ← List.append_assoc,
      List.takeWhile_append_dropWhile]
  have hc : StatementKind.isWordChar c = false := by
    have hnot := List.head?_dropWhile_not StatementKind.isWordChar head.toList
    rw [hcons] at hnot
    simpa using hnot
  rw [text, hchars]
  refine StatementKind.ofSql_append hword (fun d => List.mem_takeWhile_imp) fun d hd => ?_
  obtain rfl : c = d := by simpa using hd
  exact hc

end Fragment

namespace Query

variable {s : Settings} {q : Query} {f : Fragment}

theorem isOfKind_selectSql (h : q.selectSql s = .ok f) : f.IsOfKind .select := by
  simp only [selectSql, Result.do_eq_ok_iff, Result.pure_eq_ok_iff] at h
  obtain ⟨main, -, projection, -, joins, -, clauses, -, rfl⟩ := h
  exact ⟨"SELECT ", _, rfl, by decide⟩

theorem isOfKind_getSql (h : q.getSql s = .ok f) : f.IsOfKind .select := by
  unfold getSql at h
  split at h
  · simp only [Result.do_eq_ok_iff, Result.pure_eq_ok_iff] at h
    obtain ⟨limit, -, statement, hstatement, rfl⟩ := h
    exact (isOfKind_selectSql hstatement).append _
  · exact isOfKind_selectSql h

theorem isOfKind_hasSql (h : q.hasSql s = .ok f) : f.IsOfKind .select := by
  simp only [hasSql, Result.do_eq_ok_iff, Result.pure_eq_ok_iff] at h
  obtain ⟨statement, -, rfl⟩ := h
  exact ⟨"SELECT EXISTS(", _, rfl, by decide⟩

theorem isOfKind_headersSql {table : String} (h : headersSql s table = .ok f) :
    f.IsOfKind .select := by
  obtain ⟨name, -, rfl⟩ := Result.map_eq_ok_iff.1 h
  exact ⟨"SELECT * FROM ", name, rfl, by decide⟩

end Query

/-- The first word of a verb is one of insertions, with the modifiers of MySQL behind it or not. -/
theorem Verb.isOfKind_text (v : Verb) (rest : Fragment) :
    Fragment.IsOfKind .insert (.code s!"{v.text} INTO " :: rest) := by
  refine ⟨_, rest, rfl, ?_⟩
  obtain ⟨replace, schedule, ignore⟩ := v
  cases replace <;> cases ignore <;> rcases schedule with _ | _ | _ <;> decide

namespace Insertion

variable {s : Settings} {i : Insertion} {f : Fragment}

theorem isOfKind_headSql (h : i.headSql s = .ok f) : f.IsOfKind .insert := by
  obtain ⟨table, -, h⟩ := Result.do_eq_ok_iff.1 h
  split at h
  · simp [fault] at h
  · split at h
    · simp [Dialect.lacks] at h
    · rw [← Result.pure_eq_ok_iff.1 h]
      exact i.verb.isOfKind_text table

theorem isOfKind_eachSql {fragments : List Fragment} (h : i.eachSql s = .ok fragments) :
    ∀ f ∈ fragments, f.IsOfKind .insert := by
  obtain ⟨head, hhead, h⟩ := Result.do_eq_ok_iff.1 h
  refine Result.forall_mem_of_mapM h fun row _ f hrow => ?_
  unfold rowSql at hrow
  split at hrow
  · simp [fault] at hrow
  · simp only [Result.do_eq_ok_iff, Result.pure_eq_ok_iff] at hrow
    obtain ⟨values, -, rfl⟩ := hrow
    rw [List.append_assoc]
    exact (isOfKind_headSql hhead).append _

theorem isOfKind_togetherSql (h : i.togetherSql s = .ok f) : f.IsOfKind .insert := by
  obtain ⟨head, hhead, h⟩ := Result.do_eq_ok_iff.1 h
  simp only at h
  split at h
  · simp [fault] at h
  · simp only [Result.do_eq_ok_iff, Result.pure_eq_ok_iff] at h
    obtain ⟨tuples, -, rfl⟩ := h
    rw [List.append_assoc]
    exact (isOfKind_headSql hhead).append _

end Insertion

theorem Write.isOfKind_updateSql {s : Settings} {table f : Fragment} {assignments : List Fragment}
    {clauses : Clauses} (h : updateSql s table assignments clauses = .ok f) :
    f.IsOfKind .update := by
  obtain ⟨clauses, -, rfl⟩ := Result.map_eq_ok_iff.1 h
  exact ⟨"UPDATE ", _, rfl, by decide⟩

theorem Update.isOfKind_toSql {s : Settings} {u : Update} {f : Fragment} (h : u.toSql s = .ok f) :
    f.IsOfKind .update := by
  obtain ⟨table, -, h⟩ := Result.do_eq_ok_iff.1 h
  split at h
  · simp [fault] at h
  · obtain ⟨assignments, -, h⟩ := Result.do_eq_ok_iff.1 h
    exact Write.isOfKind_updateSql h

theorem Substitution.isOfKind_toSql {s : Settings} {table : String}
    {substitutions : List Substitution} {clauses : Clauses} {f : Fragment}
    (h : toSql s table substitutions clauses = .ok f) : f.IsOfKind .update := by
  obtain ⟨name, -, h⟩ := Result.do_eq_ok_iff.1 h
  split at h
  · simp [fault] at h
  · exact Write.isOfKind_updateSql h

theorem Deletion.isOfKind_toSql {s : Settings} {d : Deletion} {f : Fragment}
    (h : d.toSql s = .ok f) : f.IsOfKind .delete := by
  simp only [toSql, Result.do_eq_ok_iff, Result.pure_eq_ok_iff] at h
  obtain ⟨table, -, clauses, -, rfl⟩ := h
  exact ⟨"DELETE FROM ", _, rfl, by decide⟩

theorem Write.isOfKind_truncateSql {s : Settings} {table : String} {f : Fragment}
    (h : truncateSql s table = .ok f) : f.IsOfKind .other := by
  unfold truncateSql at h
  split at h
  · simp [Dialect.lacks] at h
  · obtain ⟨name, -, rfl⟩ := Result.map_eq_ok_iff.1 h
    exact ⟨"TRUNCATE TABLE ", name, rfl, by decide⟩

namespace Builder

variable {b : Builder} {sql : String}

theorem ofSql_of_write {statement : Result Fragment} {k : StatementKind}
    (h : ∀ f, statement = .ok f → f.IsOfKind k) (hsql : b.write statement = .ok sql) :
    StatementKind.ofSql sql = k := by
  obtain ⟨f, hf, rfl⟩ := Result.map_eq_ok_iff.1 hsql
  exact (h f hf).ofSql_text b.settings

theorem ofSql_of_insert {i : Insertion} {statements : List String}
    (h : b.insert i = .ok statements) : ∀ sql ∈ statements, StatementKind.ofSql sql = .insert := by
  obtain ⟨fragments, hfragments, rfl⟩ := Result.map_eq_ok_iff.1 h
  rw [List.forall_mem_map]
  exact fun f hf => (Insertion.isOfKind_eachSql hfragments f hf).ofSql_text b.settings

/-- The kinds that are read off the statements of a builder are those of its operations. -/
structure TellsKinds (b : Builder) : Prop where
  select {q : Query} {sql : String} (h : b.select q = .ok sql) : .ofSql sql = StatementKind.select
  get {q : Query} {sql : String} (h : b.get q = .ok sql) : .ofSql sql = StatementKind.select
  has {q : Query} {sql : String} (h : b.has q = .ok sql) : .ofSql sql = StatementKind.select
  aggregate {a : Aggregate} {q : Query} {sql : String} (h : b.aggregate a q = .ok sql) :
    .ofSql sql = StatementKind.select
  headers {table sql : String} (h : b.headers table = .ok sql) :
    .ofSql sql = StatementKind.select
  insert {i : Insertion} {statements : List String} (h : b.insert i = .ok statements) :
    ∀ sql ∈ statements, .ofSql sql = StatementKind.insert
  multiInsert {i : Insertion} {sql : String} (h : b.multiInsert i = .ok sql) :
    .ofSql sql = StatementKind.insert
  update {u : Update} {sql : String} (h : b.update u = .ok sql) :
    .ofSql sql = StatementKind.update
  replace {table : String} {substitutions : List Substitution} {clauses : Clauses} {sql : String}
    (h : b.replace table substitutions clauses = .ok sql) : .ofSql sql = StatementKind.update
  delete {d : Deletion} {sql : String} (h : b.delete d = .ok sql) :
    .ofSql sql = StatementKind.delete
  truncate {table sql : String} (h : b.truncate table = .ok sql) :
    .ofSql sql = StatementKind.other

theorem tellsKinds (b : Builder) : b.TellsKinds where
  select := ofSql_of_write fun _ => Query.isOfKind_selectSql
  get := ofSql_of_write fun _ => Query.isOfKind_getSql
  has := ofSql_of_write fun _ => Query.isOfKind_hasSql
  aggregate := ofSql_of_write fun _ => Query.isOfKind_selectSql
  headers := ofSql_of_write fun _ => Query.isOfKind_headersSql
  insert := ofSql_of_insert
  multiInsert := ofSql_of_write fun _ => Insertion.isOfKind_togetherSql
  update := ofSql_of_write fun _ => Update.isOfKind_toSql
  replace := ofSql_of_write fun _ => Substitution.isOfKind_toSql
  delete := ofSql_of_write fun _ => Deletion.isOfKind_toSql
  truncate := ofSql_of_write fun _ => Write.isOfKind_truncateSql

end Builder

end KeyedQuery
