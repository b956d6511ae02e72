import KeyedQuery.Condition.Predicate
import KeyedQuery.Proofs.Condition.Leaf

/-!
# Trees of conditions

What it takes for a tree of conditions to be compiled, one lemma for every kind of node, and the
soundness of the result: the text of conditions falls back into its pieces if the prefix holds no
mark of quotation and the calls that raw keys let through are plain.
-/

namespace KeyedQuery

open Sql

/-! ## Leaves -/

mutual

/-- The keys of columns in a node under a key, with their values. -/
def Node.leaves (key : String) : Node → List (String × Value)
  | .value v => [(key, v)]
  | .group entries => Conditions.leaves entries
  | .siblings groups => Conditions.leavesOfGroups groups

/-- The keys of columns in conditions, with their values. -/
def Conditions.leaves : Conditions → List (String × Value)
  | [] => []
  | (key, node) :: rest => node.leaves key ++ Conditions.leaves rest

def Conditions.leavesOfGroups : List Conditions → List (String × Value)
  | [] => []
  | entries :: rest => Conditions.leaves entries ++ Conditions.leavesOfGroups rest

end

/-- The call that the key of a column and its value let through as it is, if there is one. -/
def LeafKey.callOf? (leaf : String × Value) : Option String :=
  match LeafKey.parse leaf.1 with
  | .ok k => k.verbatim? leaf.2
  | .error _ => none

theorem LeafKey.isFunctionCall_of_callOf? {leaf : String × Value} {t : String}
    (h : callOf? leaf = some t) : Literal.isFunctionCall t = true := by
  unfold callOf? at h
  split at h
  · exact isFunctionCall_of_verbatim? h
  · simp at h

/-! ## What is compiled -/

theorem Conditions.nonempty_eq_ok_iff {key : String} {α : Type} {entries : List α} :
    nonempty key entries = .ok () ↔ entries ≠ [] := by
  cases entries <;> simp [nonempty, fault]

namespace Node

variable {s : Settings} {outer : Conjunctor} {key : String} {f : Fragment}

theorem toSql_value_eq_ok {v : Value} (h : (value v).toSql s outer key = .ok f) :
    ∃ k, LeafKey.parse key = .ok k ∧ k.toSql s v = .ok f := by
  unfold toSql at h
  split at h
  · simp [fault] at h
  · exact Result.bind_eq_ok_iff.1 h

theorem toSql_group_eq_ok {entries : List (String × Node)}
    (h : (group entries).toSql s outer key = .ok f) :
    ∃ g parts, GroupKey.parse? key = some g ∧ entries ≠ [] ∧
      Conditions.compileEach s g.conjunctor entries = .ok parts ∧
      f = (Fragment.join g.conjunctor.separator parts).parens := by
  unfold toSql at h
  split at h
  · next g hg =>
      simp only [Result.do_eq_ok_iff, Result.pure_eq_ok_iff] at h
      obtain ⟨_, hne, parts, hparts, rfl⟩ := h
      exact ⟨g, parts, hg, Conditions.nonempty_eq_ok_iff.1 hne, hparts, rfl⟩
  · simp [fault] at h

theorem toSql_siblings_eq_ok {groups : List (List (String × Node))}
    (h : (siblings groups).toSql s outer key = .ok f) :
    ∃ g parts, GroupKey.parse? key = some g ∧ groups ≠ [] ∧
      Conditions.compileGroups s g.conjunctor key groups = .ok parts ∧
      f = (Fragment.join outer.separator (parts.map Fragment.parens)).parens := by
  unfold toSql at h
  split at h
  · next g hg =>
      simp only [Result.do_eq_ok_iff, Result.pure_eq_ok_iff] at h
      obtain ⟨_, hne, parts, hparts, rfl⟩ := h
      exact ⟨g, parts, hg, Conditions.nonempty_eq_ok_iff.1 hne, hparts, rfl⟩
  · simp [fault] at h

end Node

namespace Conditions

variable {s : Settings} {outer : Conjunctor} {key : String}

theorem compileEach_cons_eq_ok {node : Node} {rest : List (String × Node)}
    {parts : List Fragment} (h : compileEach s outer ((key, node) :: rest) = .ok parts) :
    ∃ part tail, node.toSql s outer key = .ok part ∧ compileEach s outer rest = .ok tail ∧
      parts = part :: tail := by
  simp only [compileEach, Result.do_eq_ok_iff, Result.pure_eq_ok_iff] at h
  obtain ⟨part, hpart, tail, htail, rfl⟩ := h
  exact ⟨part, tail, hpart, htail, rfl⟩

theorem compileGroups_cons_eq_ok {entries : List (String × Node)}
    {rest : List (List (String × Node))} {parts : List Fragment}
    (h : compileGroups s outer key (entries :: rest) = .ok parts) :
    ∃ pieces tail, entries ≠ [] ∧ compileEach s outer entries = .ok pieces ∧
      compileGroups s outer key rest = .ok tail ∧
      parts = Fragment.join outer.separator pieces :: tail := by
  simp only [compileGroups, Result.do_eq_ok_iff, Result.pure_eq_ok_iff] at h
  obtain ⟨_, hne, pieces, hpieces, tail, htail, rfl⟩ := h
  exact ⟨pieces, tail, nonempty_eq_ok_iff.1 hne, hpieces, htail, rfl⟩

theorem length_compileEach {entries : List (String × Node)} {parts : List Fragment}
    (h : compileEach s outer entries = .ok parts) : parts.length = entries.length := by
  induction entries generalizing parts with
  | nil =>
      obtain rfl : [] = parts := Except.ok.inj h
      rfl
  | cons p entries ih =>
      obtain ⟨part, tail, -, htail, rfl⟩ := compileEach_cons_eq_ok h
      rw [List.length_cons, List.length_cons, ih htail]

end Conditions

/-! ## What holds of every compiled fragment -/

/-- Every fragment that a leaf is compiled to has the property. -/
def LeafKey.Yields (s : Settings) (P : Fragment → Prop) (leaves : List (String × Value)) : Prop :=
  ∀ leaf ∈ leaves, ∀ k f, parse leaf.1 = .ok k → k.toSql s leaf.2 = .ok f → P f

theorem LeafKey.Yields.mono {s : Settings} {P : Fragment → Prop}
    {leaves leaves' : List (String × Value)} (h : Yields s P leaves)
    (hsubset : leaves' ⊆ leaves) : Yields s P leaves' :=
  fun leaf hleaf => h leaf (hsubset hleaf)

section

variable {s : Settings} {P : Fragment → Prop}

mutual

theorem Node.holds_toSql (hP : Fragment.Compositional P) {outer : Conjunctor} {key : String}
    (node : Node) (hleaves : LeafKey.Yields s P (node.leaves key)) {f : Fragment}
    (h : node.toSql s outer key = .ok f) : P f := by
  cases node with
  | value v =>
      obtain ⟨k, hk, hf⟩ := Node.toSql_value_eq_ok h
      exact hleaves (key, v) List.mem_cons_self k f hk hf
  | group entries =>
      obtain ⟨g, parts, -, -, hparts, rfl⟩ := Node.toSql_group_eq_ok h
      exact hP.parens (hP.join g.conjunctor.isFlat_separator
        (Conditions.holds_compileEach hP entries hleaves hparts))
  | siblings groups =>
      obtain ⟨g, parts, -, -, hparts, rfl⟩ := Node.toSql_siblings_eq_ok h
      have hgroups := Conditions.holds_compileGroups hP groups hleaves hparts
      exact hP.parens (hP.join outer.isFlat_separator
        (List.forall_mem_map.2 fun part hpart => hP.parens (hgroups part hpart)))

theorem Conditions.holds_compileEach (hP : Fragment.Compositional P) {outer : Conjunctor}
    (entries : List (String × Node))
    (hleaves : LeafKey.Yields s P (Conditions.leaves entries)) {parts : List Fragment}
    (h : Conditions.compileEach s outer entries = .ok parts) : ∀ f ∈ parts, P f := by
  cases entries with
  | nil =>
      obtain rfl : [] = parts := Except.ok.inj h
      simp
  | cons p rest =>
      obtain ⟨key, node⟩ := p
      obtain ⟨part, tail, hpart, htail, rfl⟩ := Conditions.compileEach_cons_eq_ok h
      rw [Conditions.leaves] at hleaves
      exact List.forall_mem_cons.2
        ⟨Node.holds_toSql hP node (hleaves.mono (List.subset_append_left _ _)) hpart,
          Conditions.holds_compileEach hP rest (hleaves.mono (List.subset_append_right _ _)) htail⟩

theorem Conditions.holds_compileGroups (hP : Fragment.Compositional P) {inner : Conjunctor}
    {key : String} (groups : List (List (String × Node)))
    (hleaves : LeafKey.Yields s P (Conditions.leavesOfGroups groups)) {parts : List Fragment}
    (h : Conditions.compileGroups s inner key groups = .ok parts) : ∀ f ∈ parts, P f := by
  cases groups with
  | nil =>
      obtain rfl : [] = parts := Except.ok.inj h
      simp
  | cons entries rest =>
      obtain ⟨pieces, tail, -, hpieces, htail, rfl⟩ := Conditions.compileGroups_cons_eq_ok h
      rw [Conditions.leavesOfGroups] at hleaves
      have hentries := hleaves.mono (List.subset_append_left _ _)
      have hrest := hleaves.mono (List.subset_append_right _ _)
      exact List.forall_mem_cons.2
        ⟨hP.join inner.isFlat_separator
            (Conditions.holds_compileEach hP entries hentries hpieces),
          Conditions.holds_compileGroups hP rest hrest htail⟩

end

/-- What leaves have and composition keeps, conditions have. -/
theorem Conditions.holds_toSql (hP : Fragment.Compositional P) {c : Conjunctor} {m : Conditions}
    (hleaves : LeafKey.Yields s P m.leaves) {f : Fragment} (h : m.toSql s c = .ok f) : P f := by
  obtain ⟨parts, hparts, rfl⟩ := Result.map_eq_ok_iff.1 h
  exact hP.join c.isFlat_separator (holds_compileEach hP m hleaves hparts)

end

/-- Leaves have the property if names without marks of quotation and the calls of the leaves have
it. -/
theorem LeafKey.yields_of_calls {s : Settings} {P : Fragment → Prop} (hP : Fragment.Compositional P)
    (hname : ∀ text, s.quoteStyle.AbsentFrom text → P [.name text])
    (hpre : s.quoteStyle.AbsentFrom s.tablePrefix) {leaves : List (String × Value)}
    (hcalls : ∀ t ∈ leaves.filterMap callOf?, P [.call t]) : Yields s P leaves := by
  intro leaf hleaf k f hk hf
  have hcolumn := Key.absentFrom_column (Key.parse_eq_ok hk).2 s.quoteStyle
  refine holds_toSql hP ?_ (fun t ht => hcalls t ?_) hf
  · exact Identifier.holds_toSql hP fun text htext =>
      hname text (Identifier.absentFrom_ofColumn hcolumn hpre text htext)
  · exact List.mem_filterMap.2 ⟨leaf, hleaf, by simp [callOf?, hk, ht]⟩

/-! ## Soundness -/

theorem LeafKey.yields_sound {s : Settings} (hpre : s.quoteStyle.AbsentFrom s.tablePrefix)
    {leaves : List (String × Value)} (hcalls : ∀ t ∈ leaves.filterMap callOf?, s.Plain t.toList) :
    Yields s (Fragment.Sound s) leaves := by
  have hname : ∀ text, s.quoteStyle.AbsentFrom text → Fragment.Sound s [.name text] :=
    fun text h => .singleton (p := .name text) h
  refine yields_of_calls (Fragment.compositional_sound s) hname hpre
    fun t ht => .singleton ⟨?_, hcalls t ht⟩
  obtain ⟨leaf, -, hcall⟩ := List.mem_filterMap.1 ht
  exact Literal.ne_empty_of_isFunctionCall (isFunctionCall_of_callOf? hcall)

/-- The fragment of conditions is sound. -/
theorem Conditions.sound_toSql {s : Settings}
    (hpre : s.quoteStyle.AbsentFrom s.tablePrefix) {c : Conjunctor} {m : Conditions}
    (hcalls : ∀ t ∈ m.leaves.filterMap LeafKey.callOf?, s.Plain t.toList) {f : Fragment}
    (h : m.toSql s c = .ok f) : Fragment.Sound s f :=
  holds_toSql (Fragment.compositional_sound s) (LeafKey.yields_sound hpre hcalls) h

end KeyedQuery
