import KeyedQuery.Proofs.Condition.Meaning

/-!
# Meaning of predicates

At the top of a clause one node counts, `Conditions.top`: the group under a bare `OR`, or else the
group under a bare `AND`, or else the conditions as a whole. The predicate is that node compiled
without parentheses around it, so an `OR` group leaves a disjunction at the top, and everything else
leaves a conjunction.
-/

namespace KeyedQuery

open Sql

namespace Conditions

variable {s : Settings}

/-- The conjunctor and the node that count at the top of a clause. -/
def top (m : Conditions) : Conjunctor × Node :=
  match m.bareGroup? .or with
  | some node => (.or, node)
  | none =>
      match m.bareGroup? .and with
      | some node => (.and, node)
      | none => (.and, .group m)

theorem predicate_eq_topGroup {m : Conditions} (hne : m ≠ []) :
    m.predicate s = topGroup s m.top.1 m.top.2 := by
  obtain ⟨p, rest, rfl⟩ := List.exists_cons_of_ne_nil hne
  unfold predicate top
  cases bareGroup? .or (p :: rest) with
  | some node => rfl
  | none => cases bareGroup? .and (p :: rest) <;> rfl

theorem leaves_subset_of_mem {m : Conditions} {key : String} {node : Node}
    (h : (key, node) ∈ m) : node.leaves key ⊆ m.leaves := by
  induction m with
  | nil => simp at h
  | cons p rest ih =>
      obtain ⟨key', node'⟩ := p
      rw [leaves]
      rcases List.mem_cons.1 h with heq | h
      · obtain ⟨rfl, rfl⟩ := Prod.mk.inj heq
        exact List.subset_append_left _ _
      · exact List.Subset.trans (ih h) (List.subset_append_right _ _)

theorem mem_of_bareGroup? {c : Conjunctor} {m : Conditions} {node : Node}
    (h : m.bareGroup? c = some node) : node.isGroup = true ∧ ∃ key, (key, node) ∈ m := by
  obtain ⟨⟨key, node'⟩, hfind, rfl⟩ := Option.map_eq_some_iff.1 h
  have hgroup := List.find?_some hfind
  simp only [Bool.and_eq_true] at hgroup
  exact ⟨hgroup.1, key, List.mem_of_find?_eq_some hfind⟩

theorem leaves_top_subset (m : Conditions) (key : String) :
    m.top.2.isGroup = true ∧ m.top.2.leaves key ⊆ m.leaves := by
  have hgroup : ∀ c node, m.bareGroup? c = some node →
      node.isGroup = true ∧ node.leaves key ⊆ m.leaves := by
    intro c node h
    obtain ⟨hgroup, key', hmem⟩ := mem_of_bareGroup? h
    refine ⟨hgroup, ?_⟩
    have hleaves : node.leaves key = node.leaves key' := by
      cases node with
      | value v => simp [Node.isGroup] at hgroup
      | group entries => rfl
      | siblings groups => rfl
    rw [hleaves]
    exact leaves_subset_of_mem hmem
  unfold top
  split
  · next node hor => exact hgroup .or node hor
  split
  · next node hand => exact hgroup .and node hand
  · exact ⟨rfl, List.Subset.refl _⟩

theorem topGroup_group_eq_ok {c : Conjunctor} {entries : Conditions} {f : Fragment}
    (h : topGroup s c (.group entries) = .ok f) : entries ≠ [] ∧ toSql s c entries = .ok f := by
  cases entries with
  | nil => simp [topGroup, fault] at h
  | cons p entries => exact ⟨List.cons_ne_nil _ _, h⟩

theorem topGroup_siblings_eq_ok {c : Conjunctor} {groups : List Conditions} {f : Fragment}
    (h : topGroup s c (.siblings groups) = .ok f) :
    ∃ parts, groups ≠ [] ∧ groups.mapM (toSql s c) = .ok parts ∧
      f = Fragment.join Conjunctor.and.separator (parts.map Fragment.parens) := by
  cases groups with
  | nil => simp [topGroup, fault] at h
  | cons entries groups =>
      simp only [topGroup, Result.do_eq_ok_iff, Result.pure_eq_ok_iff] at h
      obtain ⟨parts, hparts, rfl⟩ := h
      exact ⟨parts, List.cons_ne_nil _ _, hparts, rfl⟩

/-! ## What holds of every predicate -/

section

variable {P : Fragment → Prop}

theorem holds_mapM_toSql (hP : Fragment.Compositional P) {c : Conjunctor} {groups : List Conditions}
    (hleaves : LeafKey.Yields s P (leavesOfGroups groups)) {parts : List Fragment}
    (h : groups.mapM (toSql s c) = .ok parts) : ∀ f ∈ parts, P f := by
  refine Result.forall_mem_of_mapM h fun entries hentries f hf => ?_
  refine holds_toSql hP (hleaves.mono ?_) hf
  clear hleaves h
  induction groups with
  | nil => simp at hentries
  | cons first rest ih =>
      rw [leavesOfGroups]
      rcases List.mem_cons.1 hentries with rfl | hentries
      · exact List.subset_append_left _ _
      · exact List.Subset.trans (ih hentries) (List.subset_append_right _ _)

theorem holds_predicate (hP : Fragment.Compositional P) {m : Conditions}
    (hleaves : LeafKey.Yields s P m.leaves) {f : Fragment} (h : m.predicate s = .ok f) : P f := by
  rcases eq_or_ne m [] with rfl | hne
  · exact holds_toSql hP hleaves h
  rw [predicate_eq_topGroup hne] at h
  obtain ⟨hgroup, hsubset⟩ := leaves_top_subset m ""
  have htop := hleaves.mono hsubset
  cases hnode : m.top.2 with
  | value v => simp [hnode, Node.isGroup] at hgroup
  | group entries =>
      rw [hnode] at h htop
      exact holds_toSql hP htop (topGroup_group_eq_ok h).2
  | siblings groups =>
      rw [hnode] at h htop
      obtain ⟨parts, -, hparts, rfl⟩ := topGroup_siblings_eq_ok h
      have hall := holds_mapM_toSql hP htop hparts
      exact hP.join Conjunctor.and.isFlat_separator
        (List.forall_mem_map.2 fun part hpart => hP.parens (hall part hpart))

end

theorem sound_mapM_toSql (hpre : s.quoteStyle.AbsentFrom s.tablePrefix) {c : Conjunctor}
    {groups : List Conditions} (hcalls : ∀ t ∈ (leavesOfGroups groups).filterMap LeafKey.callOf?,
      s.Plain t.toList) {parts : List Fragment} (h : groups.mapM (toSql s c) = .ok parts) :
    ∀ f ∈ parts, Fragment.Sound s f :=
  holds_mapM_toSql (Fragment.compositional_sound s) (LeafKey.yields_sound hpre hcalls) h

/-- The predicate of conditions is sound. -/
theorem sound_predicate (hpre : s.quoteStyle.AbsentFrom s.tablePrefix) {m : Conditions}
    (hcalls : ∀ t ∈ m.leaves.filterMap LeafKey.callOf?, s.Plain t.toList) {f : Fragment}
    (h : m.predicate s = .ok f) : Fragment.Sound s f :=
  holds_predicate (Fragment.compositional_sound s) (LeafKey.yields_sound hpre hcalls) h

/-! ## Meaning -/

def predicateMeaning (s : Settings) (m : Conditions) : Meaning :=
  match m.top with
  | (c, .group entries) => meaning s c entries
  | (c, .siblings groups) => Conjunctor.and.combine (meaningsOfGroups s c groups)
  | (_, .value _) => fun _ => false

/-- The level of the predicate: a disjunction if an `OR` group of several conditions counts, and
otherwise a conjunction. -/
def topLevel (m : Conditions) : Formula.Level :=
  match m.top with
  | (.or, .group (_ :: _ :: _)) => .disjunction
  | _ => .conjunction

theorem topLevel_eq_conjunction {m : Conditions}
    (h : ¬ ∃ p q rest, m.bareGroup? .or = some (.group (p :: q :: rest))) :
    m.topLevel = .conjunction := by
  unfold topLevel
  split
  · next p q rest htop =>
      refine absurd ⟨p, q, rest, ?_⟩ h
      unfold top at htop
      split at htop
      · next node hor => rw [hor, (Prod.mk.inj htop).2]
      split at htop <;> simp at htop
  · rfl

theorem means_siblings {c : Conjunctor} {groups : List Conditions}
    (hraw : Unmarked (leavesOfGroups groups)) {parts : List Fragment}
    (h : groups.mapM (toSql s c) = .ok parts) :
    (∀ f ∈ parts, f ≠ [] → ∃ m, Fragment.Means .disjunction f m) ∧
      ([] ∈ groups → [] ∈ parts) ∧
      ([] ∉ groups → List.Forall₂ (Fragment.Means .factor) (parts.map Fragment.parens)
        (meaningsOfGroups s c groups)) := by
  rw [Result.mapM_eq_ok_iff] at h
  induction h with
  | nil => exact ⟨by simp, by simp, fun _ => .nil⟩
  | @cons entries part groups parts hpart _ ih =>
      obtain ⟨hall, hmem, hmeans⟩ := ih fun p hp => hraw p (List.mem_append_right _ hp)
      have hentries := fun p hp => hraw p (List.mem_append_left _ hp)
      rcases eq_or_ne entries [] with rfl | hne
      · obtain rfl : [] = part := Except.ok.inj hpart
        refine ⟨?_, fun _ => List.mem_cons_self, fun hnot => absurd List.mem_cons_self hnot⟩
        exact List.forall_mem_cons.2 ⟨fun h => absurd rfl h, hall⟩
      · have hfirst := (means_toSql hne hentries hpart).disjunction
        refine ⟨List.forall_mem_cons.2 ⟨fun _ => ⟨_, hfirst⟩, hall⟩, fun h => ?_, fun h => ?_⟩
        · exact List.mem_cons_of_mem _ (hmem ((List.mem_cons.1 h).resolve_left hne.symm))
        · exact .cons hfirst.parens (hmeans fun h' => h (List.mem_cons_of_mem _ h'))

/-- A predicate that the grammar accepts has the meaning of its conditions. -/
theorem means_predicate (hpre : s.quoteStyle.AbsentFrom s.tablePrefix) {m : Conditions}
    (hne : m ≠ []) (hraw : Unmarked m.leaves) {f : Fragment} (h : m.predicate s = .ok f)
    (haccepted : Formula.parse? s (f.text s) ≠ none) :
    Fragment.Means m.topLevel f (m.predicateMeaning s) := by
  rw [predicate_eq_topGroup hne] at h
  obtain ⟨hgroup, hsubset⟩ := leaves_top_subset m ""
  have hraw' : Unmarked (m.top.2.leaves "") := fun p hp => hraw p (hsubset hp)
  unfold topLevel predicateMeaning
  generalize m.top = top at *
  obtain ⟨c, node⟩ := top
  cases node with
  | value v => simp [Node.isGroup] at hgroup
  | group entries =>
      obtain ⟨hentries, hf⟩ := topGroup_group_eq_ok h
      have hmeans := means_toSql hentries hraw' hf
      obtain ⟨⟨key, node⟩, rest, rfl⟩ := List.exists_cons_of_ne_nil hentries
      cases c with
      | and => exact hmeans
      | or =>
          cases rest with
          | cons q rest => exact hmeans
          | nil =>
              obtain ⟨parts, hparts, rfl⟩ := Result.map_eq_ok_iff.1 hf
              have honly := means_compileEach [(key, node)] hraw' hparts
              cases honly with
              | cons hpart hrest =>
                  cases hrest with
                  | nil =>
                      rw [Fragment.join_singleton]
                      simp only [meaning, meanings, Conjunctor.combine_singleton]
                      exact hpart.of_factor .and
  | siblings groups =>
      obtain ⟨parts, hgroups, hparts, rfl⟩ := topGroup_siblings_eq_ok h
      obtain ⟨hall, hmem, hmeans⟩ := means_siblings hraw' hparts
      have hcalls : (leavesOfGroups groups).filterMap LeafKey.callOf? = [] :=
        Unmarked.filterMap_callOf? hraw'
      have hsound := sound_mapM_toSql hpre (by rw [hcalls]; simp) hparts
      have hempty : [] ∉ groups := fun hg =>
        haccepted (Fragment.parse?_join_parens hall (hmem hg) hsound)
      have hjoin := Fragment.Means.join .and (hmeans hempty) (by
        have hlength := (Result.mapM_eq_ok_iff.1 hparts).length_eq
        rw [← List.length_pos_iff, List.length_map, ← hlength]
        exact List.length_pos_iff.2 hgroups)
      cases c <;> exact hjoin

end Conditions

end KeyedQuery
