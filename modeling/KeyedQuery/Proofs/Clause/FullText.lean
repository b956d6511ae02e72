import KeyedQuery.Clause.Clauses
import KeyedQuery.Proofs.Condition.Predicate

/-!
# A search beside conditions

A full-text search stands behind the predicate of the conditions, with `AND` between them. That
makes it a conjunct of the whole filter, unless the predicate is a disjunction without parentheses:
then the search restricts the last disjunct only, and a row that satisfies an earlier one is
selected without being searched.
-/

namespace KeyedQuery

open Sql

/-! ## The search -/

theorem Fragment.text_cons_code (s : Settings) (text : String) (f : Fragment) :
    Fragment.text s (.code text :: f) = text ++ f.text s := by
  rw [← String.toList_inj]
  simp [Piece.chars]

namespace FullText

variable {s : Settings} {f : FullText} {g : Fragment}

def atom (s : Settings) (f : FullText) : Atom :=
  .search (f.columns.map fun column => Identifier.ofColumn column s.tablePrefix) f.keyword

theorem toSql_eq_ok (h : f.toSql s = .ok g) : f.columns ≠ [] ∧
    g = .code "MATCH (" :: Fragment.join ", " (f.columns.map s.column) ++
      [.code ") AGAINST (", .literal f.keyword, .code ")"] := by
  unfold toSql at h
  split at h
  · simp [Dialect.lacks] at h
  split at h
  · simp [fault] at h
  · next hne => exact ⟨by simpa using hne, (Except.ok.inj h).symm⟩

theorem sound_toSql (hpre : s.quoteStyle.AbsentFrom s.tablePrefix)
    (hcolumns : ∀ column ∈ f.columns, s.quoteStyle.AbsentFrom column) (h : f.toSql s = .ok g) :
    Fragment.Sound s g := by
  obtain ⟨-, rfl⟩ := toSql_eq_ok h
  have hjoin : Fragment.Sound s (Fragment.join ", " (f.columns.map s.column)) := by
    refine Fragment.Sound.join (by decide) fun g hg => ?_
    obtain ⟨column, hcolumn, rfl⟩ := List.mem_map.1 hg
    exact s.sound_column (hcolumns column hcolumn) hpre
  have hend : Fragment.Sound s [.literal f.keyword, .code ")"] :=
    (Fragment.Sound.literal s f.keyword).append_code (by decide) (.nil s)
  exact (hjoin.cons_code (by decide)).append_code (by decide) hend

theorem means_toSql (h : f.toSql s = .ok g) :
    Fragment.Means .factor g fun σ => σ (f.atom s) := by
  obtain ⟨hne, rfl⟩ := toSql_eq_ok h
  refine Fragment.means_atom ⟨by simpa using hne, ?_⟩ ?_
  · intro i hi
    obtain ⟨column, -, rfl⟩ := List.mem_map.1 hi
    exact Identifier.ofColumn_ne_nil _ _
  · have hcolumns : (Fragment.join ", " (f.columns.map s.column)).tokens =
        Identifier.tokensAll
          (f.columns.map fun column => Identifier.ofColumn column s.tablePrefix) := by
      rw [Fragment.tokens_join (by decide), Identifier.tokensAll, List.map_map, List.map_map]
      congr 1
      refine List.map_congr_left fun column _ => ?_
      have htokens := Identifier.tokens_toSql_append
        (Identifier.ofColumn_ne_nil column s.tablePrefix) []
      rwa [List.append_nil, Fragment.tokens_nil, List.append_nil] at htokens
    have hend : Fragment.tokens [.literal f.keyword, .code ")"] =
        [.literal f.keyword, .mark ')'] :=
      Fragment.tokens_append_code (by decide) [.literal f.keyword] []
    rw [List.cons_append, Fragment.tokens_cons_code (by decide),
      Fragment.tokens_append_code (by decide), hcolumns, hend]
    rfl

end FullText

/-! ## The filter -/

/-- A conjunct behind a disjunction leaves the first disjunct alone: where that is true, the whole
is. -/
theorem Fragment.exists_means_of_disjunction {f g search : Fragment} {m n k : Meaning}
    {parts : List Fragment} {meanings : List Meaning} (hf : Means .disjunction f m)
    (hg : Means .factor g n) (h : List.Forall₂ (Means .factor) parts meanings)
    (hsearch : Means .factor search k) :
    ∃ whole, Means .disjunction
        (Fragment.join Conjunctor.or.separator (f :: g :: parts) ++ .code " AND " :: search) whole ∧
      ∀ σ, m σ = true → whole σ = true := by
  induction h generalizing f g m n with
  | nil =>
      have hlast : Means .conjunction (g ++ .code " AND " :: search) _ :=
        (hg.of_factor .and).append (c := .and) hsearch
      have hwhole := hf.append (c := .or) hlast
      refine ⟨fun σ => Conjunctor.or.apply (m σ) (Conjunctor.and.apply (n σ) (k σ)), ?_,
        fun σ hσ => ?_⟩
      · rw [Fragment.join_cons_cons, Fragment.join_singleton, List.append_assoc, List.cons_append]
        exact hwhole
      · simp [hσ, Conjunctor.apply]
  | @cons g' n' parts meanings hg' _ ih =>
      obtain ⟨whole, hwhole, htrue⟩ := ih (hf.append (c := .or) (hg.of_factor .and)) hg'
      refine ⟨whole, ?_, fun σ hσ => htrue σ (by simp [hσ, Conjunctor.apply])⟩
      rw [Fragment.join_cons_cons] at hwhole
      rw [Fragment.join_cons_cons, Fragment.join_cons_cons]
      simpa using hwhole

/-- Behind an `OR` group of several conditions a search fails to restrict the filter: the filter can
hold where the search does not. -/
theorem Conditions.exists_means_of_disjunction {s : Settings} {m : Conditions}
    {p q : String × Node} {rest : List (String × Node)}
    (hor : m.bareGroup? .or = some (.group (p :: q :: rest))) (hraw : Unmarked m.leaves)
    {f search : Fragment} (h : m.predicate s = .ok f) {columns : List Identifier} {keyword : String}
    (hsearch : Fragment.Means .factor search fun σ => σ (.search columns keyword)) :
    ∃ whole, Fragment.Means .disjunction (f ++ .code " AND " :: search) whole ∧
      (whole fun a => decide (a ≠ .search columns keyword)) = true := by
  have hgroup : toSql s .or (p :: q :: rest) = .ok f := by
    rw [predicate, hor] at h
    exact h
  have hraw' : Unmarked (leaves (p :: q :: rest)) := by
    obtain ⟨-, hsubset⟩ := leaves_top_subset m ""
    rw [top, hor] at hsubset
    exact fun leaf hleaf => hraw leaf (hsubset hleaf)
  obtain ⟨parts, hparts, rfl⟩ := Result.map_eq_ok_iff.1 hgroup
  have hmeans := means_compileEach (p :: q :: rest) hraw' hparts
  have hoff : AgreeOffSearches (fun _ => true) fun a => decide (a ≠ .search columns keyword) :=
    fun a ha => by simp [ha columns keyword]
  have hfirst := Node.meaning_congr hoff s .or p.1 p.2
  cases hmeans with
  | cons hf hmeans =>
      cases hmeans with
      | cons hg hmeans =>
          obtain ⟨whole, hwhole, htrue⟩ := Fragment.exists_means_of_disjunction
            (Fragment.Means.disjunction (c := .or) (hf.of_factor .or)) hg hmeans hsearch
          exact ⟨whole, hwhole, htrue _ (hfirst ▸ hf.eq_true)⟩

theorem Conditions.exists_parse?_of_disjunction {s : Settings} {m : Conditions}
    {p q : String × Node} {rest : List (String × Node)}
    (hor : m.bareGroup? .or = some (.group (p :: q :: rest))) (hraw : Unmarked m.leaves)
    {f search : Fragment} (h : m.predicate s = .ok f) {columns : List Identifier} {keyword : String}
    (hsearch : Fragment.Means .factor search fun σ => σ (.search columns keyword))
    (hsound : Fragment.Sound s (f ++ .code " AND " :: search)) :
    ∃ e, Formula.parse? s (Fragment.text s (f ++ .code " AND " :: search)) = some e ∧
      ∃ σ, e.eval σ = true ∧ σ (.search columns keyword) = false := by
  obtain ⟨whole, hwhole, htrue⟩ := exists_means_of_disjunction hor hraw h hsearch
  obtain ⟨e, he, heval⟩ := hwhole.exists_parse? hsound
  exact ⟨e, he, _, (heval _).trans htrue, by simp⟩

/-- Behind any other conditions the filter holds where the conditions and the search do. -/
theorem Conditions.exists_parse?_of_conjunction {s : Settings} {m : Conditions}
    (hpre : s.quoteStyle.AbsentFrom s.tablePrefix) (hne : m ≠ []) (hraw : Unmarked m.leaves)
    (hor : ¬ ∃ p q rest, m.bareGroup? .or = some (.group (p :: q :: rest)))
    {f search : Fragment} (h : m.predicate s = .ok f) (hf : Fragment.Sound s f) {e : Formula}
    (he : Formula.parse? s (f.text s) = some e) {a : Atom}
    (hsearch : Fragment.Means .factor search fun σ => σ a)
    (hsound : Fragment.Sound s (f ++ .code " AND " :: search)) :
    ∃ e', Formula.parse? s (Fragment.text s (f ++ .code " AND " :: search)) = some e' ∧
      ∀ σ, e'.eval σ = (e.eval σ && σ a) := by
  have hmeans := means_predicate hpre hne hraw h (by rw [he]; simp)
  rw [topLevel_eq_conjunction hor] at hmeans
  obtain ⟨e₀, he₀, heval⟩ := (Fragment.Means.disjunction (c := .and) hmeans).exists_parse? hf
  obtain rfl : e₀ = e := Option.some.inj (he₀.symm.trans he)
  obtain ⟨e', he', heval'⟩ :=
    ((hmeans.append (c := .and) hsearch).disjunction).exists_parse? hsound
  refine ⟨e', he', fun σ => ?_⟩
  rw [heval', heval]
  rfl

theorem Fragment.isEmpty_of_parse? {s : Settings} {f : Fragment} {e : Formula}
    (h : Formula.parse? s (f.text s) = some e) : f.isEmpty = false := by
  cases f with
  | nil => simp [text, Formula.parse?, Symbol.readAll?_nil, Formula.read?, Formula.run] at h
  | cons p f => rfl

namespace Clauses

variable {s : Settings} {c : Clauses}

structure IsFilter (c : Clauses) : Prop where
  group : c.group = []
  having : c.having = none
  order : c.order = none
  limit : c.limit = none

theorem IsFilter.toSql_eq_ok (hc : c.IsFilter) {f : Fragment} (h : c.toSql s = .ok f) :
    ∃ filter, c.filterSql s = .ok filter ∧ f = clauseSql " WHERE " filter := by
  simp only [toSql, havingSql, orderSql, limitSql, hc.having, hc.order, hc.limit,
    Result.do_eq_ok_iff, Result.pure_eq_ok_iff] at h
  obtain ⟨filter, hfilter, _, hhaving, _, horder, _, hlimit, rfl⟩ := h
  rw [← Except.ok.inj hhaving, ← Except.ok.inj horder, ← Except.ok.inj hlimit]
  exact ⟨filter, hfilter, by simp [groupSql, hc.group, clauseSql]⟩

theorem filterSql_eq_ok {f : FullText} (hf : c.fullText = some f) {g : Fragment}
    (h : c.filterSql s = .ok g) : ∃ filter search, c.conditions.predicate s = .ok filter ∧
      f.toSql s = .ok search ∧
      g = if filter.isEmpty then search else filter ++ .code " AND " :: search := by
  simp only [filterSql, hf, Result.do_eq_ok_iff, Result.pure_eq_ok_iff] at h
  obtain ⟨filter, hfilter, search, hsearch, rfl⟩ := h
  exact ⟨filter, search, hfilter, hsearch, rfl⟩

/-- Behind conditions without raw keys, a search is a conjunct of the whole filter unless an `OR`
group of several conditions stands at the top. -/
theorem search_is_conjunct_iff (hpre : s.quoteStyle.AbsentFrom s.tablePrefix)
    (hc : c.IsFilter) (hne : c.conditions ≠ []) (hraw : Unmarked c.conditions.leaves)
    {f : FullText} (hf : c.fullText = some f)
    (hcolumns : ∀ column ∈ f.columns, s.quoteStyle.AbsentFrom column) {filter text : String}
    (hfilter : (c.conditions.predicate s).map (Fragment.text s) = .ok filter) {e : Formula}
    (he : Formula.parse? s filter = some e)
    (h : (c.toSql s).map (Fragment.text s) = .ok text) :
    ∃ w e', text = " WHERE " ++ w ∧ Formula.parse? s w = some e' ∧
      ((∀ σ, e'.eval σ = (e.eval σ && σ (f.atom s))) ↔
        ¬ ∃ p q rest, c.conditions.bareGroup? .or = some (.group (p :: q :: rest))) := by
  obtain ⟨predicate, hpredicate, rfl⟩ := Result.map_eq_ok_iff.1 hfilter
  obtain ⟨statement, hstatement, rfl⟩ := Result.map_eq_ok_iff.1 h
  obtain ⟨whole, hwhole, rfl⟩ := hc.toSql_eq_ok hstatement
  obtain ⟨predicate', search, hpredicate', hsearch, rfl⟩ := filterSql_eq_ok hf hwhole
  obtain rfl : predicate = predicate' := Except.ok.inj (hpredicate.symm.trans hpredicate')
  have hcalls : ∀ t ∈ c.conditions.leaves.filterMap LeafKey.callOf?, s.Plain t.toList := by
    rw [hraw.filterMap_callOf?]
    simp
  have hsound := Conditions.sound_predicate hpre hcalls hpredicate
  have hatom := FullText.means_toSql hsearch
  have hwholeSound : Fragment.Sound s (predicate ++ .code " AND " :: search) :=
    hsound.append_code (by decide) (FullText.sound_toSql hpre hcolumns hsearch)
  have htext : Fragment.text s (clauseSql " WHERE " (predicate ++ .code " AND " :: search)) =
      " WHERE " ++ Fragment.text s (predicate ++ .code " AND " :: search) := by
    rw [← Fragment.text_cons_code]
    simp [clauseSql]
  rw [Fragment.isEmpty_of_parse? he, if_neg Bool.false_ne_true, htext]
  refine ⟨Fragment.text s (predicate ++ .code " AND " :: search), ?_⟩
  by_cases hor : ∃ p q rest, c.conditions.bareGroup? .or = some (.group (p :: q :: rest))
  · obtain ⟨p, q, rest, hgroup⟩ := hor
    obtain ⟨e', he', σ, htrue, hfalse⟩ :=
      Conditions.exists_parse?_of_disjunction hgroup hraw hpredicate hatom hwholeSound
    refine ⟨e', rfl, he', ⟨fun hconjunct => ?_, fun hnot => absurd ⟨p, q, rest, hgroup⟩ hnot⟩⟩
    have hσ := hconjunct σ
    rw [htrue, FullText.atom, hfalse, Bool.and_false] at hσ
    exact absurd hσ (by decide)
  · obtain ⟨e', he', heval⟩ := Conditions.exists_parse?_of_conjunction hpre hne hraw hor hpredicate
      hsound he hatom hwholeSound
    exact ⟨e', rfl, he', ⟨fun _ => hor, fun _ => heval⟩⟩

/-- A search behind siblings, which are no `OR` group although their conditions are joined so. -/
def behindSiblings : Clauses where
  conditions :=
    [("OR", .siblings [[("a", .value (.int 1)), ("b[>]", .value (.int 2))],
      [("d", .value .null), ("n[~]", .value (.text "x"))]])]
  fullText := some ⟨["c"], "k"⟩

theorem search_is_conjunct_at : ∃ e e',
    (behindSiblings.conditions.predicate ⟨.mysql, .backtick, ""⟩).map
      (Fragment.text ⟨.mysql, .backtick, ""⟩) =
        .ok "(`a` = 1 OR `b` > 2) AND (`d` IS NULL OR `n` LIKE '%x%')" ∧
    Formula.parse? ⟨.mysql, .backtick, ""⟩
      "(`a` = 1 OR `b` > 2) AND (`d` IS NULL OR `n` LIKE '%x%')" = some e ∧
    (behindSiblings.toSql ⟨.mysql, .backtick, ""⟩).map (Fragment.text ⟨.mysql, .backtick, ""⟩) =
      .ok (" WHERE " ++ ("(`a` = 1 OR `b` > 2) AND (`d` IS NULL OR `n` LIKE '%x%')" ++
        " AND MATCH (`c`) AGAINST ('k')")) ∧
    Formula.parse? ⟨.mysql, .backtick, ""⟩
      ("(`a` = 1 OR `b` > 2) AND (`d` IS NULL OR `n` LIKE '%x%')" ++
        " AND MATCH (`c`) AGAINST ('k')") = some e' ∧
    ∀ σ, e'.eval σ = (e.eval σ && σ (FullText.atom ⟨.mysql, .backtick, ""⟩ ⟨["c"], "k"⟩)) := by
  have hfilter : (behindSiblings.conditions.predicate ⟨.mysql, .backtick, ""⟩).map
      (Fragment.text ⟨.mysql, .backtick, ""⟩) =
        .ok "(`a` = 1 OR `b` > 2) AND (`d` IS NULL OR `n` LIKE '%x%')" := by decide +kernel
  have hread : Formula.parse? ⟨.mysql, .backtick, ""⟩
      "(`a` = 1 OR `b` > 2) AND (`d` IS NULL OR `n` LIKE '%x%')" =
        some (.join .and
          (.join .or (.atom (.compare [.name "a"] .equal (.number "1")))
            (.atom (.compare [.name "b"] .greater (.number "2"))))
          (.join .or (.atom (.isNull [.name "d"] false))
            (.atom (.like [.name "n"] false "%x%")))) := by decide +kernel
  have hstatement : (behindSiblings.toSql ⟨.mysql, .backtick, ""⟩).map
      (Fragment.text ⟨.mysql, .backtick, ""⟩) =
        .ok (" WHERE " ++ ("(`a` = 1 OR `b` > 2) AND (`d` IS NULL OR `n` LIKE '%x%')" ++
          " AND MATCH (`c`) AGAINST ('k')")) := by decide +kernel
  obtain ⟨w, e', htext, hparse, hconjunct⟩ := search_is_conjunct_iff (c := behindSiblings)
    (by decide) ⟨rfl, rfl, rfl, rfl⟩ (by simp [behindSiblings]) (by decide) rfl (by decide) hfilter
    hread hstatement
  rw [← (String.append_right_inj " WHERE ").1 htext] at hparse
  refine ⟨_, e', hfilter, hread, hstatement, hparse, hconjunct.2 ?_⟩
  rintro ⟨p, q, rest, hgroup⟩
  cases hgroup

/-- Behind an `OR` group the search is bound to the last condition. -/
theorem search_behind_or_group : ∃ e e',
    (Conditions.predicate ⟨.mysql, .backtick, ""⟩
        [("OR", .group [("a", .value (.int 1)), ("b", .value (.int 2))])]).map
      (Fragment.text ⟨.mysql, .backtick, ""⟩) = .ok "`a` = 1 OR `b` = 2" ∧
    Formula.parse? ⟨.mysql, .backtick, ""⟩ "`a` = 1 OR `b` = 2" = some e ∧
    (toSql ⟨.mysql, .backtick, ""⟩
        { conditions := [("OR", .group [("a", .value (.int 1)), ("b", .value (.int 2))])],
          fullText := some ⟨["c"], "k"⟩ }).map (Fragment.text ⟨.mysql, .backtick, ""⟩) =
      .ok " WHERE `a` = 1 OR `b` = 2 AND MATCH (`c`) AGAINST ('k')" ∧
    Formula.parse? ⟨.mysql, .backtick, ""⟩ "`a` = 1 OR `b` = 2 AND MATCH (`c`) AGAINST ('k')" =
      some e' ∧
    ∃ σ, e'.eval σ ≠
      (e.eval σ && σ (FullText.atom ⟨.mysql, .backtick, ""⟩ ⟨["c"], "k"⟩)) := by
  refine ⟨.join .or (.atom (.compare [.name "a"] .equal (.number "1")))
      (.atom (.compare [.name "b"] .equal (.number "2"))),
    .join .or (.atom (.compare [.name "a"] .equal (.number "1")))
      (.join .and (.atom (.compare [.name "b"] .equal (.number "2")))
        (.atom (.search [[.name "c"]] "k"))),
    by decide +kernel, by decide +kernel, by decide +kernel, by decide +kernel,
    fun a => decide (a ≠ .search [[.name "c"]] "k"), by decide⟩

end Clauses

end KeyedQuery
