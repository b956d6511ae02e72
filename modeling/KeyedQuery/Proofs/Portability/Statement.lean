import KeyedQuery.Proofs.Payload.Request
import KeyedQuery.Proofs.Portability.Clause

/-!
# Statements in several dialects

Under one prefix and one way of quoting, the statements for two dialects other than MySQL are the
same text, or they fail with one error up to the name of the dialect, as long as nothing limits the
rows. MySQL stands apart in three constructs of its own, full-text search, order by a list of values
and modified verbs, and in the two characters that it escapes in a string literal. Where none of
these occurs, its statements are the same as well.
-/

namespace KeyedQuery

open Result

variable {s s' : Settings}

/-! ## Queries -/

theorem MainTable.ofName_congr (hpre : s.tablePrefix = s'.tablePrefix) :
    ofName s = ofName s' := by
  funext table
  unfold ofName
  rw [Settings.checkedTable_congr hpre, Settings.table_congr hpre]

theorem Column.toSql_congr (hpre : s.tablePrefix = s'.tablePrefix) : toSql s = toSql s' := by
  funext c
  unfold toSql expression
  rw [Settings.column_congr hpre]

theorem Projection.toSql_congr (hpre : s.tablePrefix = s'.tablePrefix) :
    toSql s = toSql s' := by
  funext p
  unfold toSql
  rw [Column.toSql_congr hpre]

theorem Join.toSql_congr (hpre : s.tablePrefix = s'.tablePrefix) : toSql s = toSql s' := by
  funext main j
  unfold toSql relationSql leftSide
  rw [Settings.checkedTable_congr hpre, Settings.table_congr hpre,
    Settings.column_congr hpre]

namespace Query

variable {q : Query} (hpre : s.tablePrefix = s'.tablePrefix) (hlimit : q.clauses.limit = none)
  (h : s.dialect.isMySql = s'.dialect.isMySql ∨ q.clauses.IsCommon)
include hpre hlimit h

theorem agree_selectSql : Agree (q.selectSql s) (q.selectSql s') := by
  unfold selectSql projectionSql
  rw [MainTable.ofName_congr hpre, Projection.toSql_congr hpre, Join.toSql_congr hpre]
  refine (agree_of_eq rfl).bind fun main => (agree_of_eq rfl).bind fun projection => ?_
  refine (agree_of_eq rfl).bind fun joins => ?_
  exact (Clauses.agree_toSql hpre hlimit h).bind fun _ => agree_of_eq rfl

theorem agree_hasSql : Agree (q.hasSql s) (q.hasSql s') :=
  (agree_selectSql (q := { q with projection := .all, reduction := some .existence })
    hpre hlimit h).bind fun _ => agree_of_eq rfl

theorem agree_aggregateSql (a : Aggregate) : Agree (q.aggregateSql s a) (q.aggregateSql s' a) :=
  agree_selectSql (q := q.withReduction (.aggregate a)) hpre hlimit h

end Query

/-! ## Writes -/

namespace Insertion

variable {i : Insertion} (hpre : s.tablePrefix = s'.tablePrefix)
include hpre

theorem agree_headSql (h : s.dialect.isMySql = s'.dialect.isMySql ∨ i.verb = .insert) :
    Agree (i.headSql s) (i.headSql s') := by
  unfold headSql
  rw [Settings.checkedTable_congr hpre]
  refine (agree_of_eq rfl).bind fun table => ?_
  split
  · exact agree_of_eq rfl
  · rcases h with hdialect | hverb
    · rw [hdialect]
      split
      · exact agree_lacks _ _ _
      · exact agree_of_eq rfl
    · have hplain : i.verb.isExtended = false := by rw [hverb]; rfl
      rw [hplain]
      exact agree_of_eq rfl

theorem agree_eachSql (h : s.dialect.isMySql = s'.dialect.isMySql ∨ i.verb = .insert) :
    Agree (i.eachSql s) (i.eachSql s') := by
  refine (agree_headSql hpre h).bind fun head => agree_of_eq ?_
  have hrow : rowSql s head = rowSql s' head := by
    funext row
    unfold rowSql Record.columnsSql
    rw [Settings.column_congr hpre]
  rw [hrow]

theorem agree_togetherSql (h : s.dialect.isMySql = s'.dialect.isMySql ∨ i.verb = .insert) :
    Agree (i.togetherSql s) (i.togetherSql s') := by
  refine (agree_headSql hpre h).bind fun head => agree_of_eq ?_
  unfold Record.columnsSql
  rw [Settings.column_congr hpre]

end Insertion

theorem Write.agree_updateSql (hpre : s.tablePrefix = s'.tablePrefix) {c : Clauses}
    (hlimit : c.limit = none) (h : s.dialect.isMySql = s'.dialect.isMySql ∨ c.IsCommon)
    (table : Fragment) (assignments : List Fragment) :
    Agree (updateSql s table assignments c) (updateSql s' table assignments c) :=
  (Clauses.agree_toSql hpre hlimit h).map fun _ _ => rfl

theorem Record.assignmentsSql_congr (hpre : s.tablePrefix = s'.tablePrefix) (r : Record) :
    r.assignmentsSql s = r.assignmentsSql s' := by
  unfold assignmentsSql AssignmentKey.toSql
  rw [Settings.column_congr hpre]

theorem Update.agree_toSql (hpre : s.tablePrefix = s'.tablePrefix) {u : Update}
    (hlimit : u.clauses.limit = none)
    (h : s.dialect.isMySql = s'.dialect.isMySql ∨ u.clauses.IsCommon) :
    Agree (u.toSql s) (u.toSql s') := by
  unfold toSql
  rw [Settings.checkedTable_congr hpre, Record.assignmentsSql_congr hpre]
  refine (agree_of_eq rfl).bind fun table => ?_
  split
  · exact agree_of_eq rfl
  · exact (agree_of_eq rfl).bind fun assignments =>
      Write.agree_updateSql hpre hlimit h table assignments

theorem Substitution.agree_toSql (hpre : s.tablePrefix = s'.tablePrefix) {c : Clauses}
    (hlimit : c.limit = none) (h : s.dialect.isMySql = s'.dialect.isMySql ∨ c.IsCommon)
    (table : String) (substitutions : List Substitution) :
    Agree (toSql s table substitutions c) (toSql s' table substitutions c) := by
  have hassignment : assignment s = assignment s' := by
    funext r
    rw [assignment, assignment, Settings.column_congr hpre]
  unfold toSql
  rw [Settings.checkedTable_congr hpre, hassignment]
  refine (agree_of_eq rfl).bind fun table => ?_
  split
  · exact agree_of_eq rfl
  · exact Write.agree_updateSql hpre hlimit h table _

theorem Deletion.agree_toSql (hpre : s.tablePrefix = s'.tablePrefix) {d : Deletion}
    (hlimit : d.clauses.limit = none)
    (h : s.dialect.isMySql = s'.dialect.isMySql ∨ d.clauses.IsCommon) :
    Agree (d.toSql s) (d.toSql s') := by
  unfold toSql
  rw [Settings.checkedTable_congr hpre]
  exact (agree_of_eq rfl).bind fun _ =>
    (Clauses.agree_toSql hpre hlimit h).bind fun _ => agree_of_eq rfl

/-! ## Texts -/

theorem Dialect.isMySql_eq_false {d : Dialect} (h : d ≠ .mysql) : d.isMySql = false := by
  cases d with
  | mysql => exact absurd rfl h
  | _ => rfl

/-- MySQL alone escapes the backslash. -/
theorem Dialect.escapesBackslash_eq_isMySql (d : Dialect) : d.escapesBackslash = d.isMySql := by
  cases d <;> rfl

/-- A text in which nothing but the quote is ever escaped. -/
def Text.IsUnescaped (text : String) : Prop := '\\' ∉ text.toList ∧ '\x00' ∉ text.toList

instance (text : String) : Decidable (Text.IsUnescaped text) := inferInstanceAs (Decidable (_ ∧ _))

theorem Dialect.escapeChar_congr {d d' : Dialect} {c : Char}
    (h : d.isMySql = d'.isMySql ∨ (c ≠ '\\' ∧ c ≠ '\x00')) : d.escapeChar c = d'.escapeChar c := by
  rcases h with h | ⟨hslash, hnull⟩
  · rw [escapeChar, escapeChar, d.escapesBackslash_eq_isMySql, d'.escapesBackslash_eq_isMySql, h]
  · simp [escapeChar, hslash, hnull]

namespace Fragment

def literals (f : Fragment) : List String :=
  f.filterMap fun
    | .literal text => some text
    | _ => none

theorem mem_literals {f : Fragment} {text : String} (h : Piece.literal text ∈ f) :
    text ∈ f.literals :=
  List.mem_filterMap.2 ⟨_, h, rfl⟩

/-- A fragment has one text in two dialects that escape alike the texts in its string literals. -/
theorem text_congr (hquote : s.quoteStyle = s'.quoteStyle) {f : Fragment}
    (h : s.dialect.isMySql = s'.dialect.isMySql ∨ ∀ t ∈ f.literals, Text.IsUnescaped t) :
    f.text s = f.text s' := by
  refine congrArg String.ofList (List.flatMap_congr fun p hp => ?_)
  cases p with
  | code t => rfl
  | name t => rw [Piece.chars, Piece.chars, hquote]
  | call t => rfl
  | literal t =>
      have hchars : t.toList.flatMap s.dialect.escapeChar =
          t.toList.flatMap s'.dialect.escapeChar := by
        refine List.flatMap_congr fun c hc => Dialect.escapeChar_congr (h.imp_right fun h => ?_)
        obtain ⟨hslash, hnull⟩ := h t (mem_literals hp)
        exact ⟨fun hc' => hslash (hc' ▸ hc), fun hc' => hnull (hc' ▸ hc)⟩
      rw [Piece.chars, Piece.chars, Dialect.quoteChars, Dialect.quoteChars, hchars]

end Fragment

/-! ## Requests -/

namespace Request

variable {b b' : Builder} {r : Request}

def clauses : Request → Clauses
  | select q => q.clauses
  | get q => q.clauses
  | has q => q.clauses
  | aggregate _ q => q.clauses
  | insert _ => {}
  | multiInsert _ => {}
  | update u => u.clauses
  | replace _ _ clauses => clauses
  | delete d => d.clauses

/-- Whether the rows of a request are limited, by its clauses or because one row is asked for. -/
def isLimited : Request → Bool
  | get _ => true
  | r => r.clauses.limit.isSome

/-- The verb of a request; it is the plain one unless the request is an insertion. -/
def verb : Request → Verb
  | insert i => i.verb
  | multiInsert i => i.verb
  | _ => .insert

def literals (s : Settings) (r : Request) : List String :=
  match r.fragments s with
  | .ok fragments => fragments.flatMap Fragment.literals
  | .error _ => []

theorem limit_eq_none (h : r.isLimited = false) : r.clauses.limit = none := by
  cases r with
  | get q => exact nomatch h
  | _ => exact Option.isSome_eq_false_iff.1 h |> Option.isNone_iff_eq_none.1

theorem agree_fragments (hpre : s.tablePrefix = s'.tablePrefix) (hlimit : r.isLimited = false)
    (h : s.dialect.isMySql = s'.dialect.isMySql ∨ (r.clauses.IsCommon ∧ r.verb = .insert)) :
    Agree (r.fragments s) (r.fragments s') := by
  have hsingle : ∀ x y : Result Fragment, Agree x y →
      Agree (x.map fun f => [f]) (y.map fun f => [f]) := fun _ _ h => h.map fun _ _ => rfl
  have hnone := limit_eq_none hlimit
  have hclauses := h.imp_right And.left
  have hverb := h.imp_right And.right
  cases r with
  | get q => exact nomatch hlimit
  | select q => exact hsingle _ _ (Query.agree_selectSql hpre hnone hclauses)
  | has q => exact hsingle _ _ (Query.agree_hasSql hpre hnone hclauses)
  | aggregate a q => exact hsingle _ _ (Query.agree_aggregateSql hpre hnone hclauses a)
  | insert i => exact Insertion.agree_eachSql hpre hverb
  | multiInsert i => exact hsingle _ _ (Insertion.agree_togetherSql hpre hverb)
  | update u => exact hsingle _ _ (Update.agree_toSql hpre hnone hclauses)
  | replace table substitutions c =>
      exact hsingle _ _ (Substitution.agree_toSql hpre hnone hclauses table substitutions)
  | delete d => exact hsingle _ _ (Deletion.agree_toSql hpre hnone hclauses)

theorem agree_run (hquote : b.settings.quoteStyle = b'.settings.quoteStyle)
    (hpre : b.settings.tablePrefix = b'.settings.tablePrefix) (hlimit : r.isLimited = false)
    (h : b.settings.dialect.isMySql = b'.settings.dialect.isMySql ∨
      (r.clauses.IsCommon ∧ r.verb = .insert) ∧
        ∀ t ∈ r.literals b.settings, Text.IsUnescaped t) :
    Agree (r.run b) (r.run b') := by
  rw [run_eq, run_eq]
  refine (agree_fragments hpre hlimit (h.imp_right And.left)).map fun fragments hfragments => ?_
  refine List.map_congr_left fun f hf => Fragment.text_congr hquote (h.imp_right fun h t ht => ?_)
  exact h.2 t (by rw [literals, hfragments]; exact List.mem_flatMap.2 ⟨f, hf, ht⟩)

/-- Two builders of one prefix and one way of quoting give the same statements for a request without
a limit, or the same error up to the name of the dialect: if neither dialect is MySQL, and also if
one is, as long as the request has no construct of MySQL and no text in a string literal has a
backslash or a null character in it. -/
theorem dialect_is_confined (b b' : Builder) (r : Request)
    (hquote : b.settings.quoteStyle = b'.settings.quoteStyle)
    (hpre : b.settings.tablePrefix = b'.settings.tablePrefix) (hlimit : r.isLimited = false) :
    (b.settings.dialect ≠ .mysql ∧ b'.settings.dialect ≠ .mysql → Agree (r.run b) (r.run b')) ∧
      (b.settings.dialect = .mysql ∨ b'.settings.dialect = .mysql →
        r.clauses.IsCommon ∧ r.verb = .insert →
        (∀ t ∈ r.literals b.settings, Text.IsUnescaped t) → Agree (r.run b) (r.run b')) := by
  refine ⟨fun ⟨hb, hb'⟩ => agree_run hquote hpre hlimit (.inl ?_),
    fun _ hcommon hliterals => agree_run hquote hpre hlimit (.inr ⟨hcommon, hliterals⟩)⟩
  rw [Dialect.isMySql_eq_false hb, Dialect.isMySql_eq_false hb']

theorem dialect_is_confined_at :
    let b : Dialect → Builder := fun d => ⟨⟨d, .ansi, "p_"⟩, rfl⟩
    let search : Request := .select { table := "t", clauses := { fullText := some ⟨["a"], "x"⟩ } }
    let update : Request := .update
      { table := "t", assignments := Record.ofList [("a", .text "it's")],
        clauses := { conditions := [("b[~]", .value (.text "x")), ("c", .value (.list []))] } }
    (search.run (b .oracle) = .error (.dialectMismatch "oracle" "MATCH ... AGAINST") ∧
        search.run (b .sybase) = .error (.dialectMismatch "sybase" "MATCH ... AGAINST") ∧
        Agree (search.run (b .oracle)) (search.run (b .sybase))) ∧
      update.run (b .mysql) =
        .ok ["UPDATE \"p_t\" SET \"a\" = 'it''s' WHERE \"b\" LIKE '%x%' AND 1=0"] ∧
      Agree (update.run (b .mysql)) (update.run (b .postgres)) := by
  intro b search update
  have hsearch := (dialect_is_confined (b .oracle) (b .sybase) search rfl rfl rfl).1
    ⟨by decide, by decide⟩
  have hliterals : update.literals (b .mysql).settings = ["it's", "%x%"] := by decide +kernel
  have hupdate := (dialect_is_confined (b .mysql) (b .postgres) update rfl rfl rfl).2 (.inl rfl)
    ⟨⟨rfl, fun _ h => nomatch h⟩, rfl⟩ (hliterals ▸ by decide)
  exact ⟨⟨by decide +kernel, by decide +kernel, hsearch⟩, by decide +kernel, hupdate⟩

end Request

end KeyedQuery
