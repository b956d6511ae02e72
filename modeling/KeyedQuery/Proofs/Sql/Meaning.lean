import KeyedQuery.Proofs.Sql.Formula

/-!
# Meaning of fragments

The meaning of a predicate is a truth value for every truth assignment to the atomic predicates. A
fragment has a meaning at a level of the grammar if its tokens are derived there from a formula with
that meaning. Joining fragments with a conjunctor joins their meanings, provided that each of them
is a factor, and parentheses make a factor of anything.
-/

namespace KeyedQuery

open Sql Formula

/-- A truth value for every truth assignment to the atomic predicates. -/
abbrev Sql.Meaning := (Atom → Bool) → Bool

namespace Conjunctor

def combine : Conjunctor → List Meaning → Meaning
  | and, meanings, σ => meanings.all (· σ)
  | or, meanings, σ => meanings.any (· σ)

/-- The level of formulas that the conjunctor joins. -/
def level : Conjunctor → Level
  | and => .conjunction
  | or => .disjunction

/-- The level of formulas that may stand behind the conjunctor. -/
def operandLevel : Conjunctor → Level
  | and => .factor
  | or => .conjunction

theorem combine_singleton (c : Conjunctor) (m : Meaning) : c.combine [m] = m := by
  funext σ
  cases c <;> simp [combine]

theorem combine_cons_cons (c : Conjunctor) (m n : Meaning) (meanings : List Meaning) :
    c.combine (m :: n :: meanings) = c.combine ((fun σ => c.apply (m σ) (n σ)) :: meanings) := by
  funext σ
  cases c with
  | and => simp [combine, apply, Bool.and_assoc]
  | or => simp [combine, apply, Bool.or_assoc]

theorem tokens_separator (c : Conjunctor) :
    Fragment.tokens [.code c.separator] = (Symbol.conjunctor c).tokens := by
  cases c <;> decide

theorem separates_separator (c : Conjunctor) : separates c.separator = true := by
  cases c <;> decide

theorem isCode_separator (c : Conjunctor) : isCode c.separator = true := by
  cases c <;> decide

end Conjunctor

namespace Fragment

/-- The tokens of the fragment have a formula of the level with this meaning. Which formula it is
stays hidden: all that is asked of a compiled condition is its meaning. -/
def Means (level : Level) (f : Fragment) (meaning : Meaning) : Prop :=
  ∃ e xs, f.tokens = xs.flatMap Symbol.tokens ∧ (∀ x ∈ xs, x.WellFormed) ∧
    Derives level e xs ∧ ∀ σ, e.eval σ = meaning σ

variable {f g : Fragment} {m n : Meaning}

theorem means_atom {a : Atom} (h : a.WellFormed) (hf : f.tokens = a.tokens) :
    Means .factor f fun σ => σ a :=
  ⟨.atom a, [.atom a], by simp [hf, Symbol.tokens], by simpa [Symbol.WellFormed] using h, .atom a,
    fun _ => rfl⟩

theorem Means.of_factor (h : Means .factor f m) (c : Conjunctor) : Means c.level f m := by
  obtain ⟨e, xs, htokens, hwf, hderives, heval⟩ := h
  cases c with
  | and => exact ⟨e, xs, htokens, hwf, .factor hderives, heval⟩
  | or => exact ⟨e, xs, htokens, hwf, .conjunction (.factor hderives), heval⟩

theorem Means.operand (h : Means .factor f m) (c : Conjunctor) : Means c.operandLevel f m := by
  cases c with
  | and => exact h
  | or => exact h.of_factor .and

theorem Means.disjunction {c : Conjunctor} (h : Means c.level f m) : Means .disjunction f m := by
  obtain ⟨e, xs, htokens, hwf, hderives, heval⟩ := h
  cases c with
  | and => exact ⟨e, xs, htokens, hwf, .conjunction hderives, heval⟩
  | or => exact ⟨e, xs, htokens, hwf, hderives, heval⟩

theorem Means.parens (h : Means .disjunction f m) : Means .factor (parens f) m := by
  obtain ⟨e, xs, htokens, hwf, hderives, heval⟩ := h
  refine ⟨e, .opening :: xs ++ [.closing], ?_, ?_, .parens hderives, heval⟩
  · rw [tokens_parens, htokens]
    simp [Symbol.tokens]
  · intro x hx
    simp only [List.cons_append, List.mem_cons, List.mem_append, List.not_mem_nil, or_false] at hx
    rcases hx with rfl | hx | rfl
    · trivial
    · exact hwf x hx
    · trivial

/-- An operand may follow a fragment that the conjunctor may have joined. -/
theorem Means.append {c : Conjunctor} (hf : Means c.level f m) (hg : Means c.operandLevel g n) :
    Means c.level (f ++ .code c.separator :: g) fun σ => c.apply (m σ) (n σ) := by
  obtain ⟨e₁, xs, hxs, hwf₁, hderives₁, heval₁⟩ := hf
  obtain ⟨e₂, ys, hys, hwf₂, hderives₂, heval₂⟩ := hg
  refine ⟨.join c e₁ e₂, xs ++ .conjunctor c :: ys, ?_, ?_, ?_, ?_⟩
  · rw [tokens_append_code c.separates_separator, c.tokens_separator, hxs, hys]
    simp
  · intro x hx
    rcases List.mem_append.1 hx with hx | hx
    · exact hwf₁ x hx
    · rcases List.mem_cons.1 hx with rfl | hx
      · trivial
      · exact hwf₂ x hx
  · cases c with
    | and => exact .and hderives₁ hderives₂
    | or => exact .or hderives₁ hderives₂
  · intro σ
    rw [eval, heval₁, heval₂]

/-- Factors joined with a conjunctor mean what the conjunctor makes of their meanings. -/
theorem Means.join (c : Conjunctor) {parts : List Fragment} {meanings : List Meaning}
    (h : List.Forall₂ (Means .factor) parts meanings) (hne : parts ≠ []) :
    Means c.level (join c.separator parts) (c.combine meanings) := by
  have hjoin : ∀ {parts : List Fragment} {meanings : List Meaning} {f : Fragment} {m : Meaning},
      List.Forall₂ (Means .factor) parts meanings → Means c.level f m →
      Means c.level (Fragment.join c.separator (f :: parts)) (c.combine (m :: meanings)) := by
    intro parts meanings f m h
    induction h generalizing f m with
    | nil =>
        intro hf
        rwa [join_singleton, c.combine_singleton]
    | @cons g n parts meanings hg _ ih =>
        intro hf
        have hrest := ih (hf.append (hg.operand c))
        rw [c.combine_cons_cons, join_cons_cons]
        cases parts with
        | nil => simpa using hrest
        | cons g' parts =>
            rw [join_cons_cons, List.append_assoc, List.cons_append] at hrest
            rwa [join_cons_cons]
  cases h with
  | nil => exact absurd rfl hne
  | cons hf h => exact hjoin h (hf.of_factor c)

/-- No formula is false if all atomic predicates are true. -/
theorem Means.eq_true {level : Level} (h : Means level f m) : (m fun _ => true) = true := by
  have htrue : ∀ e : Formula, (e.eval fun _ => true) = true := by
    intro e
    induction e with
    | atom a => rfl
    | join c left right ihl ihr => cases c <;> simp [eval, Conjunctor.apply, ihl, ihr]
  obtain ⟨e, -, -, -, -, heval⟩ := h
  rw [← heval]
  exact htrue e

theorem parse?_text {s : Settings} (h : Sound s f) :
    Formula.parse? s (f.text s) = (Symbol.readAll? f.tokens).bind read? := by
  rw [Formula.parse?, toList_text, scan_chars h]
  rfl

/-- The text of a sound fragment with a meaning is accepted in full, and has that meaning. -/
theorem Means.exists_parse? {s : Settings} (h : Means .disjunction f m) (hsound : Sound s f) :
    ∃ e, Formula.parse? s (f.text s) = some e ∧ ∀ σ, e.eval σ = m σ := by
  obtain ⟨e, xs, htokens, hwf, hderives, heval⟩ := h
  refine ⟨e, ?_, heval⟩
  rw [parse?_text hsound, (Symbol.readAll?_eq_some_iff _ xs).2 ⟨htokens, hwf⟩]
  exact (read?_eq_some_iff xs e).2 hderives

/-- The symbols of a fragment in parentheses are a factor, or are refused if it is empty. -/
theorem exists_symbols_parens (h : f ≠ [] → ∃ m, Means .disjunction f m) :
    ∃ ys, tokens (Fragment.parens f) = ys.flatMap Symbol.tokens ∧ (∀ y ∈ ys, y.WellFormed) ∧
      ((f = [] ∧ ∀ frame rest, run frame [] none (ys ++ rest) = none) ∨
        f ≠ [] ∧ ∃ e, Derives .factor e ys) := by
  rcases eq_or_ne f [] with rfl | hne
  · refine ⟨[.opening, .closing], rfl, ?_, .inl ⟨rfl, fun _ _ => rfl⟩⟩
    intro y hy
    rcases List.mem_pair.1 hy with rfl | rfl <;> trivial
  · obtain ⟨m, hm⟩ := h hne
    obtain ⟨e, ys, htokens, hwf, hderives, -⟩ := hm.parens
    exact ⟨ys, htokens, hwf, .inr ⟨hne, e, hderives⟩⟩

/-- The symbols of fragments in parentheses, of which some are empty and the others have a meaning,
are refused if one is empty, whatever frame they are read in. -/
theorem exists_symbols_of_parens {parts : List Fragment}
    (h : ∀ f ∈ parts, f ≠ [] → ∃ m, Means .disjunction f m) :
    ∃ xs, tokens (Fragment.join Conjunctor.and.separator (parts.map Fragment.parens)) =
        xs.flatMap Symbol.tokens ∧ (∀ x ∈ xs, x.WellFormed) ∧
      ([] ∈ parts → ∀ frame, run frame [] none xs = none) := by
  induction parts with
  | nil => exact ⟨[], rfl, by simp, by simp⟩
  | cons f parts ih =>
      obtain ⟨ys, hys, hwfy, hread⟩ := exists_symbols_parens (h f List.mem_cons_self)
      obtain ⟨zs, hzs, hwfz, hrest⟩ := ih fun g hg => h g (List.mem_cons_of_mem _ hg)
      cases parts with
      | nil =>
          refine ⟨ys, by rwa [List.map_singleton, join_singleton], hwfy, fun hmem frame => ?_⟩
          rcases hread with ⟨-, hread⟩ | ⟨hne, -⟩
          · simpa using hread frame []
          · exact absurd (List.mem_singleton.1 hmem).symm hne
      | cons g parts =>
          refine ⟨ys ++ .conjunctor .and :: zs, ?_, ?_, fun hmem frame => ?_⟩
          · rw [List.map_cons, List.map_cons, join_cons_cons,
              tokens_append_code (Conjunctor.separates_separator .and),
              Conjunctor.tokens_separator, hys, ← List.map_cons, hzs]
            simp
          · intro x hx
            rcases List.mem_append.1 hx with hx | hx
            · exact hwfy x hx
            · rcases List.mem_cons.1 hx with rfl | hx
              · trivial
              · exact hwfz x hx
          · rcases hread with ⟨-, hread⟩ | ⟨hne, e, hderives⟩
            · exact hread frame _
            · obtain ⟨frame', operand, -, hrun⟩ := run_of_derives hderives frame
              rw [hrun, run]
              exact hrest ((List.mem_cons.1 hmem).resolve_left hne.symm) _

theorem parse?_join_parens {s : Settings} {parts : List Fragment}
    (h : ∀ f ∈ parts, f ≠ [] → ∃ m, Means .disjunction f m) (hempty : [] ∈ parts)
    (hsound : ∀ f ∈ parts, Sound s f) :
    Formula.parse? s
      ((Fragment.join Conjunctor.and.separator (parts.map Fragment.parens)).text s) = none := by
  have hjoin : Sound s (Fragment.join Conjunctor.and.separator (parts.map Fragment.parens)) := by
    refine Sound.join (Conjunctor.and.isCode_separator) fun g hg => ?_
    obtain ⟨f, hf, rfl⟩ := List.mem_map.1 hg
    exact (hsound f hf).parens
  obtain ⟨xs, htokens, hwf, hrun⟩ := exists_symbols_of_parens h
  rw [parse?_text hjoin, (Symbol.readAll?_eq_some_iff _ xs).2 ⟨htokens, hwf⟩]
  exact hrun hempty {}

end Fragment

end KeyedQuery
