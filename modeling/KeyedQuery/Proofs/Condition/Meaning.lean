import KeyedQuery.Proofs.Condition.Tree

/-!
# Meaning of trees of conditions

The entries of conditions are combined by the conjunctor in force: the one that the caller gives at
the top, and the one that its key names inside a group. Siblings are groups of their own, and their
meanings are combined by the conjunctor in force where they stand.

The text of conditions without raw keys is accepted by the grammar of predicates and has this
meaning. Every part that is compiled is a factor, which carries the induction over the tree: groups
and siblings get parentheses, and so does a leaf that holds a conjunctor of its own.
-/

namespace KeyedQuery

open Sql

mutual

/-- The meaning of the node under a key, among conditions that are joined with `outer`. -/
def Node.meaning (s : Settings) (outer : Conjunctor) (key : String) : Node → Meaning
  | .value v =>
      match LeafKey.parse key with
      | .ok k => k.meaning s v
      | .error _ => fun _ => false
  | .group entries =>
      match GroupKey.parse? key with
      | some g => g.conjunctor.combine (Conditions.meanings s g.conjunctor entries)
      | none => fun _ => false
  | .siblings groups =>
      match GroupKey.parse? key with
      | some g => outer.combine (Conditions.meaningsOfGroups s g.conjunctor groups)
      | none => fun _ => false

def Conditions.meanings (s : Settings) (outer : Conjunctor) : List (String × Node) → List Meaning
  | [] => []
  | (key, node) :: rest => node.meaning s outer key :: Conditions.meanings s outer rest

def Conditions.meaningsOfGroups (s : Settings) (inner : Conjunctor) :
    List (List (String × Node)) → List Meaning
  | [] => []
  | entries :: rest =>
      inner.combine (Conditions.meanings s inner entries) ::
        Conditions.meaningsOfGroups s inner rest

end

/-- The meaning of conditions that are joined with a conjunctor. -/
def Conditions.meaning (s : Settings) (c : Conjunctor) (m : Conditions) : Meaning :=
  c.combine (meanings s c m)

/-! ## Conditions say nothing of searches -/

/-- Whether two truth assignments agree on all atomic predicates but full-text searches. -/
def Sql.AgreeOffSearches (σ σ' : Atom → Bool) : Prop :=
  ∀ a, (∀ columns keyword, a ≠ .search columns keyword) → σ a = σ' a

theorem Conjunctor.combine_congr {σ σ' : Atom → Bool} (c : Conjunctor) {meanings : List Meaning}
    (h : ∀ m ∈ meanings, m σ = m σ') : c.combine meanings σ = c.combine meanings σ' := by
  have hmap : meanings.map (· σ) = meanings.map (· σ') := List.map_congr_left h
  cases c with
  | and => simpa [combine, Function.comp_def] using congrArg (List.all · id) hmap
  | or => simpa [combine, Function.comp_def] using congrArg (List.any · id) hmap

theorem LeafKey.ne_search_of_mem_alternatives {s : Settings} {k : LeafKey} {v : Value} {a : Atom}
    (h : a ∈ k.alternatives s v) (columns : List Identifier) (keyword : String) :
    a ≠ .search columns keyword := by
  rintro rfl
  have hmember : ∀ column negated items, Atom.search columns keyword ≠
      memberOf column negated items := by
    intro column negated items hmem
    unfold memberOf at hmem
    split at hmem <;> simp at hmem
  have hinferred : ∀ column negated v, Atom.search columns keyword ≠
      inferredOf column negated v := by
    intro column negated v hmem
    unfold inferredOf at hmem
    split at hmem
    · simp at hmem
    · exact hmember _ _ _ hmem
    · simp at hmem
  simp only [alternatives] at h
  split at h
  · exact hinferred _ _ _ (List.mem_singleton.1 h)
  · exact hinferred _ _ _ (List.mem_singleton.1 h)
  · simp at h
  · simp at h
  · simp at h
  · simp at h

theorem LeafKey.meaning_congr {σ σ' : Atom → Bool} (hσ : AgreeOffSearches σ σ') (s : Settings)
    (k : LeafKey) (v : Value) : k.meaning s v σ = k.meaning s v σ' := by
  have hmap : (k.alternatives s v).map σ = (k.alternatives s v).map σ' :=
    List.map_congr_left fun a ha => hσ a (ne_search_of_mem_alternatives ha)
  simpa [meaning] using congrArg (List.any · id) hmap

mutual

theorem Node.meaning_congr {σ σ' : Atom → Bool} (hσ : AgreeOffSearches σ σ') (s : Settings)
    (outer : Conjunctor) (key : String) (node : Node) :
    node.meaning s outer key σ = node.meaning s outer key σ' := by
  cases node with
  | value v =>
      rw [Node.meaning]
      cases LeafKey.parse key with
      | ok k => exact LeafKey.meaning_congr hσ s k v
      | error e => rfl
  | group entries =>
      rw [Node.meaning]
      cases GroupKey.parse? key with
      | some g => exact Conjunctor.combine_congr _ (Conditions.meanings_congr hσ s _ entries)
      | none => rfl
  | siblings groups =>
      rw [Node.meaning]
      cases GroupKey.parse? key with
      | some g =>
          exact Conjunctor.combine_congr _ (Conditions.meaningsOfGroups_congr hσ s _ groups)
      | none => rfl

theorem Conditions.meanings_congr {σ σ' : Atom → Bool} (hσ : AgreeOffSearches σ σ')
    (s : Settings) (outer : Conjunctor) (entries : List (String × Node)) :
    ∀ m ∈ Conditions.meanings s outer entries, m σ = m σ' := by
  cases entries with
  | nil => simp [Conditions.meanings]
  | cons p rest =>
      exact List.forall_mem_cons.2 ⟨Node.meaning_congr hσ s outer p.1 p.2,
        Conditions.meanings_congr hσ s outer rest⟩

theorem Conditions.meaningsOfGroups_congr {σ σ' : Atom → Bool} (hσ : AgreeOffSearches σ σ')
    (s : Settings) (inner : Conjunctor) (groups : List (List (String × Node))) :
    ∀ m ∈ Conditions.meaningsOfGroups s inner groups, m σ = m σ' := by
  cases groups with
  | nil => simp [Conditions.meaningsOfGroups]
  | cons entries rest =>
      exact List.forall_mem_cons.2
        ⟨Conjunctor.combine_congr inner (Conditions.meanings_congr hσ s inner entries),
          Conditions.meaningsOfGroups_congr hσ s inner rest⟩

end

def Unmarked (leaves : List (String × Value)) : Prop :=
  ∀ p ∈ leaves, (Identifier.splitMarker p.1).1 = false

instance (leaves : List (String × Value)) : Decidable (Unmarked leaves) :=
  List.decidableBAll _ leaves

theorem Unmarked.filterMap_callOf? {leaves : List (String × Value)} (h : Unmarked leaves) :
    leaves.filterMap LeafKey.callOf? = [] := by
  refine List.filterMap_eq_nil_iff.2 fun p hp => ?_
  unfold LeafKey.callOf?
  split
  · next k hk =>
      refine LeafKey.verbatim?_of_raw_eq_false ?_ p.2
      rw [(Key.parse_eq_ok hk).1]
      exact h p hp
  · rfl

/-! ## The fragment of conditions has their meaning -/

mutual

theorem Node.means_toSql {s : Settings} {outer : Conjunctor} {key : String} (node : Node)
    (hraw : Unmarked (node.leaves key)) {f : Fragment} (h : node.toSql s outer key = .ok f) :
    Fragment.Means .factor f (node.meaning s outer key) := by
  cases node with
  | value v =>
      obtain ⟨k, hk, hf⟩ := Node.toSql_value_eq_ok h
      rw [Node.meaning, hk]
      refine LeafKey.means_toSql (LeafKey.isColumn_of_parse hk _) ?_ hf
      rw [(Key.parse_eq_ok hk).1]
      exact hraw (key, v) (by simp [Node.leaves])
  | group entries =>
      obtain ⟨g, parts, hg, hne, hparts, rfl⟩ := Node.toSql_group_eq_ok h
      have hmeans := Conditions.means_compileEach entries hraw hparts
      rw [Node.meaning, hg]
      refine (Fragment.Means.join g.conjunctor hmeans ?_).disjunction.parens
      rw [← List.length_pos_iff, Conditions.length_compileEach hparts]
      exact List.length_pos_iff.2 hne
  | siblings groups =>
      obtain ⟨g, parts, hg, hne, hparts, rfl⟩ := Node.toSql_siblings_eq_ok h
      obtain ⟨hmeans, hlength⟩ := Conditions.means_compileGroups groups hraw hparts
      rw [Node.meaning, hg]
      refine (Fragment.Means.join outer hmeans ?_).disjunction.parens
      rw [← List.length_pos_iff, List.length_map, hlength]
      exact List.length_pos_iff.2 hne

theorem Conditions.means_compileEach {s : Settings} {outer : Conjunctor}
    (entries : List (String × Node)) (hraw : Unmarked (Conditions.leaves entries))
    {parts : List Fragment} (h : Conditions.compileEach s outer entries = .ok parts) :
    List.Forall₂ (Fragment.Means .factor) parts (Conditions.meanings s outer entries) := by
  cases entries with
  | nil =>
      obtain rfl : [] = parts := Except.ok.inj h
      exact .nil
  | cons p rest =>
      obtain ⟨key, node⟩ := p
      obtain ⟨part, tail, hpart, htail, rfl⟩ := Conditions.compileEach_cons_eq_ok h
      refine .cons (Node.means_toSql node (fun q hq => hraw q ?_) hpart)
        (Conditions.means_compileEach rest (fun q hq => hraw q ?_) htail)
      · exact List.mem_append_left _ hq
      · exact List.mem_append_right _ hq

theorem Conditions.means_compileGroups {s : Settings} {inner : Conjunctor} {key : String}
    (groups : List (List (String × Node))) (hraw : Unmarked (Conditions.leavesOfGroups groups))
    {parts : List Fragment} (h : Conditions.compileGroups s inner key groups = .ok parts) :
    List.Forall₂ (Fragment.Means .factor) (parts.map Fragment.parens)
      (Conditions.meaningsOfGroups s inner groups) ∧ parts.length = groups.length := by
  cases groups with
  | nil =>
      obtain rfl : [] = parts := Except.ok.inj h
      exact ⟨.nil, rfl⟩
  | cons entries rest =>
      obtain ⟨pieces, tail, hne, hpieces, htail, rfl⟩ := Conditions.compileGroups_cons_eq_ok h
      have hentries := Conditions.means_compileEach entries
        (fun q hq => hraw q (List.mem_append_left _ hq)) hpieces
      obtain ⟨hrest, hlength⟩ := Conditions.means_compileGroups rest
        (fun q hq => hraw q (List.mem_append_right _ hq)) htail
      refine ⟨.cons (Fragment.Means.join inner hentries ?_).disjunction.parens hrest, ?_⟩
      · rw [← List.length_pos_iff, Conditions.length_compileEach hpieces]
        exact List.length_pos_iff.2 hne
      · rw [List.length_cons, List.length_cons, hlength]

end

namespace Conditions

/-- Conditions joined with a conjunctor are a formula of its level, with their meaning. -/
theorem means_toSql {s : Settings} {c : Conjunctor} {m : Conditions} (hne : m ≠ [])
    (hraw : Unmarked m.leaves) {f : Fragment} (h : m.toSql s c = .ok f) :
    Fragment.Means c.level f (m.meaning s c) := by
  obtain ⟨parts, hparts, rfl⟩ := Result.map_eq_ok_iff.1 h
  refine Fragment.Means.join c (means_compileEach m hraw hparts) ?_
  rw [← List.length_pos_iff, length_compileEach hparts]
  exact List.length_pos_iff.2 hne

/-- The text of conditions under columns that are not raw is accepted in full by the grammar of
predicates, and its formula has the meaning of the conditions. -/
theorem exists_parse?_toSql {s : Settings} (hpre : s.quoteStyle.AbsentFrom s.tablePrefix)
    {c : Conjunctor} {m : Conditions} (hne : m ≠ []) (hraw : Unmarked m.leaves) {text : String}
    (h : (m.toSql s c).map (Fragment.text s) = .ok text) :
    ∃ e, Formula.parse? s text = some e ∧ ∀ σ, e.eval σ = m.meaning s c σ := by
  obtain ⟨f, hf, rfl⟩ := Result.map_eq_ok_iff.1 h
  have hsound : Fragment.Sound s f := by
    refine sound_toSql hpre ?_ hf
    rw [hraw.filterMap_callOf?]
    simp
  exact (means_toSql hne hraw hf).disjunction.exists_parse? hsound

/-- Conditions under both conjunctors, with quotations that hold marks and keywords. -/
def nested : Conditions :=
  [("a[~]", .value (.list [.text "x' AND (", .int 2])),
    ("OR # first", .siblings [
      [("t.b[<>]", .value (.list [.int 1, .int 5])), ("c[!]", .value .null)],
      [("AND", .group [("d", .value (.list [])), ("e[>]", .value (.text "]\\"))])]])]

theorem exists_parse?_nested :
    ∃ e, Formula.parse? ⟨.mysql, .bracket, "p_"⟩
      ("([a] LIKE '%x'' AND (%' OR [a] LIKE '%2%') OR ((([p_t].[b] BETWEEN 1 AND 5) OR " ++
        "[c] IS NOT NULL) OR ((1=0 AND [e] > ']\\\\')))") = some e ∧
      ∀ σ, e.eval σ = nested.meaning ⟨.mysql, .bracket, "p_"⟩ .or σ :=
  exists_parse?_toSql (by decide) (by simp [nested]) (by decide) (by decide +kernel)

end Conditions

end KeyedQuery
