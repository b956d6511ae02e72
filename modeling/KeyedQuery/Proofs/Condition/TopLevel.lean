import KeyedQuery.Proofs.Condition.Tree

/-!
# The top of a predicate

Conditions are compiled in two ways, at the top of a clause and inside of other conditions. Without
a group under a bare key the two agree. A group that stands alone under a bare key loses its
parentheses at the top. The top takes less care, though: it refuses siblings if there are none, but
not if one of them is empty, and then writes empty parentheses.
-/

namespace KeyedQuery

theorem Fragment.text_parens (s : Settings) (f : Fragment) :
    (parens f).text s = "(" ++ f.text s ++ ")" := by
  rw [← String.toList_inj]
  simp

namespace Conditions

variable {s : Settings} {key : String} {node : Node} {g : GroupKey}

/-- A group under a key that is only a conjunctor. -/
def IsBareGroup (p : String × Node) : Prop :=
  p.2.isGroup = true ∧ ∃ g, GroupKey.parse? p.1 = some g ∧ g.isBare = true

theorem bareGroup?_eq_none {m : Conditions} (h : ∀ p ∈ m, ¬ IsBareGroup p) (c : Conjunctor) :
    m.bareGroup? c = none := by
  refine Option.map_eq_none_iff.2 (List.find?_eq_none.2 fun p hp hbare => h p hp ?_)
  simp only [Bool.and_eq_true, Option.any_eq_true] at hbare
  obtain ⟨hgroup, g, hg, hg', -⟩ := hbare
  exact ⟨hgroup, g, hg, hg'⟩

theorem bareGroup?_singleton (hg : GroupKey.parse? key = some g) (hbare : g.isBare = true)
    (hgroup : node.isGroup = true) (c : Conjunctor) :
    bareGroup? c [(key, node)] = if g.conjunctor = c then some node else none := by
  by_cases hc : g.conjunctor = c
  · simp [bareGroup?, hg, hbare, hgroup, hc]
  · simp [bareGroup?, hg, hbare, hgroup, hc]

/-- A group alone under a bare key is compiled as the group of a whole predicate. -/
theorem predicate_singleton (hg : GroupKey.parse? key = some g) (hbare : g.isBare = true)
    (hgroup : node.isGroup = true) : predicate s [(key, node)] = topGroup s g.conjunctor node := by
  rw [predicate, bareGroup?_singleton hg hbare hgroup, bareGroup?_singleton hg hbare hgroup]
  cases g.conjunctor <;> rfl

/-! ## Siblings -/

/-- Siblings of which none is empty are compiled one by one, as at the top. -/
theorem compileGroups_eq_mapM {c : Conjunctor} {groups : List Conditions} (h : [] ∉ groups) :
    compileGroups s c key groups = groups.mapM (toSql s c) := by
  induction groups with
  | nil => rfl
  | cons entries rest ih =>
      obtain ⟨hentries, hrest⟩ : [] ≠ entries ∧ [] ∉ rest := by simpa using h
      obtain ⟨p, entries, rfl⟩ := List.exists_cons_of_ne_nil hentries.symm
      rw [compileGroups, List.mapM_cons, ih hrest]
      simp only [nonempty, toSql]
      cases compileEach s c (p :: entries) <;> rfl

theorem not_mem_of_compileGroups {c : Conjunctor} {groups : List Conditions}
    {parts : List Fragment} (h : compileGroups s c key groups = .ok parts) : [] ∉ groups := by
  induction groups generalizing parts with
  | nil => simp
  | cons entries rest ih =>
      obtain ⟨pieces, tail, hentries, -, htail, -⟩ := compileGroups_cons_eq_ok h
      rw [List.mem_cons, not_or]
      exact ⟨hentries.symm, ih htail⟩

/-! ## Both ways of compiling -/

theorem toSql_singleton (c : Conjunctor) : toSql s c [(key, node)] = node.toSql s c key := by
  simp only [toSql, compileEach]
  cases hnode : node.toSql s c key with
  | error e => rfl
  | ok f => exact congrArg Except.ok (Fragment.join_singleton _ f)

/-- A group is compiled as the group of a whole predicate, in parentheses, unless it is a list of
siblings of which one is empty. -/
theorem toOption_toSql (hg : GroupKey.parse? key = some g) (hgroup : node.isGroup = true)
    (hsiblings : ∀ groups, node = .siblings groups → [] ∉ groups) :
    (node.toSql s .and key).toOption =
      (topGroup s g.conjunctor node).toOption.map Fragment.parens := by
  cases node with
  | value v => simp [Node.isGroup] at hgroup
  | group entries =>
      rw [Node.toSql, hg]
      cases entries with
      | nil => rfl
      | cons p entries =>
          simp only [nonempty, topGroup, toSql]
          cases compileEach s g.conjunctor (p :: entries) <;> rfl
  | siblings groups =>
      rw [Node.toSql, hg]
      cases groups with
      | nil => rfl
      | cons entries groups =>
          simp only [nonempty, topGroup, compileGroups_eq_mapM (hsiblings _ rfl)]
          cases (entries :: groups).mapM (toSql s g.conjunctor) <;> rfl

/-- Siblings of which one is empty are compiled at the top if each of them is. -/
theorem isOk_topGroup {c : Conjunctor} {groups : List Conditions} (h : [] ∈ groups) :
    (topGroup s c (.siblings groups)).isOk = true ↔
      ∀ entries ∈ groups, (toSql s c entries).isOk = true := by
  obtain ⟨entries, rest, rfl⟩ := List.exists_cons_of_ne_nil (List.ne_nil_of_mem h)
  rw [← Result.isOk_mapM, topGroup]
  cases (entries :: rest).mapM (toSql s c) <;> rfl

/-- Both ways of compiling agree on conditions without a group under a bare key. On a group that
stands alone under one, the texts differ by a pair of parentheses where there are both, and either
both are there or none, unless the group is a list of siblings that all can be compiled and of which
one is empty. -/
theorem predicate_agrees_with_toSql (s : Settings) (m : Conditions) :
    ((∀ p ∈ m, ¬ IsBareGroup p) → m.predicate s = m.toSql s .and) ∧
      ∀ key node g, m = [(key, node)] → GroupKey.parse? key = some g → g.isBare = true →
        node.isGroup = true →
        (∀ f f', m.predicate s = .ok f → m.toSql s .and = .ok f' →
          f'.text s = "(" ++ f.text s ++ ")") ∧
        ((m.predicate s).isOk = (m.toSql s .and).isOk ↔
          ¬ ∃ groups, node = .siblings groups ∧ [] ∈ groups ∧
            ∀ entries ∈ groups, (toSql s g.conjunctor entries).isOk = true) := by
  constructor
  · intro h
    rw [predicate, bareGroup?_eq_none h, bareGroup?_eq_none h]
  · rintro key node g rfl hg hbare hgroup
    rw [predicate_singleton hg hbare hgroup, toSql_singleton]
    by_cases hempty : ∃ groups, node = .siblings groups ∧ [] ∈ groups
    · obtain ⟨groups, rfl, hmem⟩ := hempty
      have herror : ∀ f', (Node.siblings groups).toSql s .and key ≠ .ok f' := by
        intro f' hf'
        obtain ⟨_, _, -, -, hparts, -⟩ := Node.toSql_siblings_eq_ok hf'
        exact not_mem_of_compileGroups hparts hmem
      have hnot : ((Node.siblings groups).toSql s .and key).isOk = false := by
        rw [Bool.eq_false_iff, Ne, Result.isOk_iff]
        rintro ⟨f', hf'⟩
        exact herror f' hf'
      refine ⟨fun f f' _ hf' => absurd hf' (herror f'), ?_⟩
      rw [hnot, Bool.eq_false_iff, Ne, isOk_topGroup hmem, not_iff_not]
      constructor
      · exact fun hall => ⟨groups, rfl, hmem, hall⟩
      · rintro ⟨_, heq, -, hall⟩
        obtain rfl := Node.siblings.inj heq
        exact hall
    · have hoption := toOption_toSql (s := s) hg hgroup
        fun groups hnode hmem => hempty ⟨groups, hnode, hmem⟩
      refine ⟨fun f f' hf hf' => ?_, ?_⟩
      · rw [hf, hf'] at hoption
        rw [Option.some.inj hoption, Fragment.text_parens]
      · rw [Result.isOk_eq_isSome, Result.isOk_eq_isSome, hoption, Option.isSome_map]
        simp only [true_iff]
        rintro ⟨groups, hnode, hmem, -⟩
        exact hempty ⟨groups, hnode, hmem⟩

/-- A group whose key has a comment, and so is not bare, beside another condition. -/
def besideGroup : Conditions :=
  [("a", .value (.int 1)),
    ("OR #either", .group [("b[>]", .value (.int 2)), ("c", .value .null)])]

/-- Siblings of several conditions alone under a bare key. -/
def loneSiblings : Conditions :=
  [("OR", .siblings [[("a", .value (.int 1)), ("b[>]", .value (.int 2))],
    [("c", .value .null), ("n[~]", .value (.text "x"))]])]

theorem predicate_agrees_with_toSql_at :
    (besideGroup.predicate ⟨.sqlite, .ansi, ""⟩ = besideGroup.toSql ⟨.sqlite, .ansi, ""⟩ .and ∧
      (besideGroup.toSql ⟨.sqlite, .ansi, ""⟩ .and).map (Fragment.text ⟨.sqlite, .ansi, ""⟩) =
        .ok "\"a\" = 1 AND (\"b\" > 2 OR \"c\" IS NULL)") ∧
      (loneSiblings.predicate ⟨.sqlite, .ansi, ""⟩).isOk =
        (loneSiblings.toSql ⟨.sqlite, .ansi, ""⟩ .and).isOk ∧
      ∃ f f', loneSiblings.predicate ⟨.sqlite, .ansi, ""⟩ = .ok f ∧
        loneSiblings.toSql ⟨.sqlite, .ansi, ""⟩ .and = .ok f' ∧
        f.text ⟨.sqlite, .ansi, ""⟩ =
          "(\"a\" = 1 OR \"b\" > 2) AND (\"c\" IS NULL OR \"n\" LIKE '%x%')" ∧
        f'.text ⟨.sqlite, .ansi, ""⟩ = "(" ++ f.text ⟨.sqlite, .ansi, ""⟩ ++ ")" := by
  obtain ⟨hbeside, -⟩ := predicate_agrees_with_toSql ⟨.sqlite, .ansi, ""⟩ besideGroup
  obtain ⟨-, hlone⟩ := predicate_agrees_with_toSql ⟨.sqlite, .ansi, ""⟩ loneSiblings
  obtain ⟨htext, hisOk⟩ := hlone "OR" _ ⟨.or, none⟩ rfl (by decide) rfl rfl
  have hpredicate : (loneSiblings.predicate ⟨.sqlite, .ansi, ""⟩).map
      (Fragment.text ⟨.sqlite, .ansi, ""⟩) =
        .ok "(\"a\" = 1 OR \"b\" > 2) AND (\"c\" IS NULL OR \"n\" LIKE '%x%')" := by
    decide +kernel
  have hnested : (loneSiblings.toSql ⟨.sqlite, .ansi, ""⟩ .and).isOk = true := by decide +kernel
  obtain ⟨f, hf, hftext⟩ := Result.map_eq_ok_iff.1 hpredicate
  obtain ⟨f', hf'⟩ := Result.isOk_iff.1 hnested
  refine ⟨⟨hbeside ?_, by decide +kernel⟩, hisOk.2 ?_, f, f', hf, hf', hftext, htext f f' hf hf'⟩
  · have hkey : GroupKey.parse? "OR #either" = some ⟨.or, some "either"⟩ := by decide
    simp [besideGroup, IsBareGroup, hkey, GroupKey.isBare, Node.isGroup]
  · rintro ⟨groups, hgroups, hempty, -⟩
    obtain rfl := Node.siblings.inj hgroups
    simp at hempty

/-- An empty sibling is refused inside of other conditions and let through at the top. -/
theorem predicate_of_empty_sibling :
    GroupKey.parse? "OR" = some ⟨.or, none⟩ ∧ GroupKey.isBare ⟨.or, none⟩ = true ∧
      (predicate ⟨.postgres, .ansi, ""⟩ [("OR", .siblings [[]])]).map
        (Fragment.text ⟨.postgres, .ansi, ""⟩) = .ok "()" ∧
      toSql ⟨.postgres, .ansi, ""⟩ .and [("OR", .siblings [[]])] =
        .error (.malformed (.emptyGroup "OR")) := by
  refine ⟨by decide, rfl, by decide +kernel, by decide +kernel⟩

end Conditions

end KeyedQuery
