import KeyedQuery.Condition.Predicate
import KeyedQuery.Proofs.Condition.Leaf
import KeyedQuery.Proofs.Sql.Truth

/-!
# Negated operators

The operators that ask for a value, for a range and for a pattern have negated counterparts. Under
the same column and the same value the negated form is true, false or unknown as the other one is
false, true or unknown, whatever the column holds. Only a search for several terms is different:
both of its forms are disjunctions, so a content that matches one term and not another satisfies
both of them.

A call that a raw key lets through counts as the constant that it returns.
-/

namespace KeyedQuery

open Sql

/-! ## Calls and what they return -/

/-- A constant, with a piece that it is written as. -/
structure Sql.Constant where
  scalar : Scalar
  piece : Piece
  denotes : piece.Denotes scalar

def Sql.Constant.ofText (text : String) : Constant :=
  ⟨.text text, .literal text, Piece.denotes_text text⟩

/-- A piece, or the constant that a call returns. -/
def Piece.settle (ρ : String → Constant) : Piece → Piece
  | code text => code text
  | name text => name text
  | literal text => literal text
  | call text => (ρ text).piece

def Fragment.settle (ρ : String → Constant) (f : Fragment) : Fragment := f.map (Piece.settle ρ)

/-- A fragment that stays as it is when its calls are settled. -/
def Fragment.IsSettled (ρ : String → Constant) (f : Fragment) : Prop := f.settle ρ = f

variable {ρ : String → Constant}

theorem Fragment.compositional_isSettled : Compositional (IsSettled ρ) where
  nil := rfl
  literal _ := rfl
  append hf _ hg := by simp_all [IsSettled, settle, Piece.settle]
  enclose hf _ hg := by simp_all [IsSettled, settle, Piece.settle]

theorem Fragment.isSettled_column (s : Settings) (name : String) : IsSettled ρ (s.column name) :=
  Identifier.holds_toSql compositional_isSettled fun _ _ => rfl

theorem Fragment.settle_equality {column : Fragment} (h : IsSettled ρ column)
    (negated : Bool) (p : Piece) : (LeafKey.equality column negated p).settle ρ =
      LeafKey.equality column negated (p.settle ρ) := by
  simp_all [IsSettled, LeafKey.equality, settle, Piece.settle]

/-! ## Opposite predicates -/

/-- Two fragments that mean alternatives, those of the second being the negations of those of the
first. -/
structure Fragment.Oppose (f f' : Fragment) (as bs : List Atom) : Prop where
  ne_nil : as ≠ []
  atoms : List.Forall₂ Atom.Opposes as bs
  means : Means .factor f fun σ => as.any σ
  means_opposite : Means .factor f' fun σ => bs.any σ

theorem Fragment.Oppose.of_atom {f f' : Fragment} {a b : Atom} (h : a.Opposes b)
    (hf : Means .factor f fun σ => σ a) (hf' : Means .factor f' fun σ => σ b) :
    Oppose f f' [a] [b] where
  ne_nil := List.cons_ne_nil a []
  atoms := .cons h .nil
  means := by simpa using hf
  means_opposite := by simpa using hf'

section

variable {X : Type} (c : Collation X) (row : Row X)

/-- Opposite alternatives are opposite as a whole only if all of them are alike. -/
theorem Fragment.Oppose.exists_truth? {f f' : Fragment} {as bs : List Atom}
    (h : Oppose f f' as bs) :
    ∃ t t', f.truth? c row = some t ∧ f'.truth? c row = some t' ∧
      (t' = t.not ↔ ∀ a ∈ as, ∀ b ∈ as, a.truth c row = b.truth c row) := by
  have hbs : bs.map (Atom.truth c row) = (as.map (Atom.truth c row)).map Truth.not := by
    have hatoms := h.atoms
    clear h
    induction hatoms with
    | nil => rfl
    | cons h _ ih => rw [List.map_cons, List.map_cons, List.map_cons, ih, h.truth]
  refine ⟨_, _, (h.means.of_factor .or).truth? c row, (h.means_opposite.of_factor .or).truth? c row,
    ?_⟩
  rw [hbs, Truth.any_map_not_eq_iff (by simpa using h.ne_nil)]
  simp only [List.forall_mem_map]

/-- The patterns of a search are alike for a content unless it matches some of them and not all. -/
theorem Sql.forall_like_truth_eq_iff (i : Identifier) (patterns : List String) :
    (∀ a ∈ patterns.map (Atom.like i false), ∀ b ∈ patterns.map (Atom.like i false),
        a.truth c row = b.truth c row) ↔
      ¬ ∃ x, row.content i = some x ∧ (∃ p ∈ patterns, c.like x p = true) ∧
        ∃ p ∈ patterns, c.like x p = false := by
  simp only [List.forall_mem_map, Atom.truth, Truth.negateIf]
  cases row.content i with
  | none => simp [Collation.testLike]
  | some x =>
      have hinj : ∀ b b' : Bool, Truth.ofBool b = Truth.ofBool b' ↔ b = b' := by decide
      simp only [Collation.testLike, Bool.false_eq_true, if_false, hinj, Option.some.injEq,
        exists_eq_left']
      constructor
      · rintro h ⟨⟨p, hp, htrue⟩, q, hq, hfalse⟩
        rw [h p hp q hq, hfalse] at htrue
        cases htrue
      · intro h p hp q hq
        rw [Bool.eq_iff_iff]
        exact ⟨fun hlike => by_contra fun hne => h ⟨⟨p, hp, hlike⟩, q, hq, eq_false_of_ne_true hne⟩,
          fun hlike => by_contra fun hne => h ⟨⟨q, hq, hlike⟩, p, hp, eq_false_of_ne_true hne⟩⟩

end

/-! ## Opposite conditions -/

theorem Literal.ofValue_of_verbatim?_eq_none {raw : Bool} {v : Value}
    (h : verbatim? raw v = none) : ofValue raw v = ofScalar v := by
  cases v with
  | text t =>
      have hcall : (raw && isFunctionCall t) = false := by
        simpa [verbatim?] using h
      simp [ofScalar, ofValue, ofText, hcall]
  | _ => rfl

theorem Literal.ofValue_of_verbatim?_eq_some {raw : Bool} {v : Value} {t : String}
    (h : verbatim? raw v = some t) : v = .text t ∧ ofValue raw v = .ok (.call t) := by
  cases v with
  | text u =>
      obtain ⟨hcall, rfl⟩ : (raw && isFunctionCall u) = true ∧ u = t := by
        simpa [verbatim?] using h
      exact ⟨rfl, by simp [ofValue, ofText, hcall]⟩
  | _ => cases h

inductive Operator.Opposes : Option Operator → Option Operator → Prop
  | inferred : Opposes none (some .differs)
  | between : Opposes (some (.between false)) (some (.between true))
  | like : Opposes (some (.like false)) (some (.like true))

theorem Operator.Opposes.cases {op op' : Option Operator} (h : Opposes op op') :
    (op = none ∧ op' = some .differs) ∨
      (op = some (.between false) ∧ op' = some (.between true)) ∨
      op = some (.like false) ∧ op' = some (.like true) := by
  cases h <;> simp

namespace LeafKey

structure Opposes (k k' : LeafKey) : Prop where
  raw : k'.raw = k.raw
  column : k'.column = k.column
  operator : Operator.Opposes k.operator k'.operator

theorem Opposes.verbatim? {k k' : LeafKey} (h : k.Opposes k') (v : Value) :
    k'.verbatim? v = k.verbatim? v := by
  unfold LeafKey.verbatim?
  rw [h.raw]
  rcases h.operator.cases with ⟨hop, hop'⟩ | ⟨hop, hop'⟩ | ⟨hop, hop'⟩
  all_goals rw [hop, hop']

def patterns (v : Value) : List String :=
  (searched v).map fun item => Pattern.ofTerm (termText item)

variable {s : Settings} {k k' : LeafKey} {v : Value} {f f' : Fragment}

section

variable {i : Identifier} (hi : i.IsColumn) (hsettled : Fragment.IsSettled ρ i.toSql)

include hi hsettled

/-- Without an operator and with its negation the same constant is asked for, or what the same call
returns. -/
theorem exists_inferred (raw : Bool) (v : Value) :
    ∃ a : Bool → Atom, (a false).Opposes (a true) ∧
      ∀ {k : LeafKey} {negated : Bool} {f : Fragment}, k.raw = raw →
        inferred i.toSql k negated v = .ok f →
        Fragment.Means .factor (f.settle ρ) fun σ => σ (a negated) := by
  cases hcall : Literal.verbatim? raw v with
  | none =>
      refine ⟨fun negated => inferredOf i negated v, ?_, ?_⟩
      · cases v with
        | null => exact .isNull i
        | list items =>
            simp only [inferredOf, memberOf]
            split
            · exact .constant
            · exact .member i _
        | _ => exact .compare i _
      · rintro k negated f rfl h
        have hunmarked : inferred i.toSql k negated v =
            inferred i.toSql { k with raw := false } negated v := by
          have hvalue := Literal.ofValue_of_verbatim?_eq_none hcall
          cases v with
          | null => rfl
          | list items => rfl
          | _ => simp only [inferred, hvalue, Literal.ofScalar]
        have hsame : Fragment.IsSettled ρ f :=
          holds_inferred Fragment.compositional_isSettled hsettled (by simp [hcall]) h
        rw [hsame]
        exact means_inferred hi rfl (hunmarked ▸ h)
  | some t =>
      refine ⟨fun negated =>
        .compare i (if negated then .differs else .equal) (ρ t).scalar, .compare i _, ?_⟩
      rintro k negated f rfl h
      obtain ⟨rfl, hvalue⟩ := Literal.ofValue_of_verbatim?_eq_some hcall
      have hequality : f = equality i.toSql negated (.call t) := by
        simpa [inferred, hvalue, Except.map, eq_comm] using h
      rw [hequality, Fragment.settle_equality hsettled]
      exact means_equality hi (ρ t).denotes.tokens negated

end

theorem isSettled_toSql (hcall : k.verbatim? v = none) (h : k.toSql s v = .ok f) :
    Fragment.IsSettled ρ f :=
  holds_toSql Fragment.compositional_isSettled (Fragment.isSettled_column s k.column)
    (by simp [hcall]) h

/-- A search for terms is settled, and means that one of its patterns is matched. -/
theorem means_like {negated : Bool} (hop : k.operator = some (.like negated))
    (hi : (Identifier.ofColumn k.column s.tablePrefix).IsColumn) (h : k.toSql s v = .ok f) :
    patterns v ≠ [] ∧ Fragment.Means .factor (f.settle ρ) fun σ => ((patterns v).map
      (Atom.like (Identifier.ofColumn k.column s.tablePrefix) negated)).any σ := by
  have hsettled : Fragment.IsSettled ρ f := isSettled_toSql (by simp [verbatim?, hop]) h
  simp only [toSql, hop] at h
  split at h
  · cases h
  · next hne =>
      obtain ⟨ts, hts, rfl⟩ := Result.map_eq_ok_iff.1 h
      refine ⟨by simpa [patterns] using hne, ?_⟩
      have hmeaning : k.meaning s v = fun σ => ((patterns v).map
          (Atom.like (Identifier.ofColumn k.column s.tablePrefix) negated)).any σ := by
        funext σ
        simp [meaning, alternatives, hop, patterns, Function.comp_def]
      rw [hsettled, ← hmeaning]
      exact means_terms hop hi (by simpa using hne) hts

theorem means_between {negated : Bool} (hop : k.operator = some (.between negated))
    (hi : (Identifier.ofColumn k.column s.tablePrefix).IsColumn) (h : k.toSql s v = .ok f) :
    ∃ low high, v = .list [low, high] ∧ Fragment.Means .factor (f.settle ρ) fun σ =>
      σ (.between (Identifier.ofColumn k.column s.tablePrefix) negated (Scalar.ofValue low)
        (Scalar.ofValue high)) := by
  have hsettled : Fragment.IsSettled ρ f := isSettled_toSql (by simp [verbatim?, hop]) h
  simp only [toSql, hop] at h
  split at h
  · next low high =>
      split at h
      · rw [hsettled]
        exact ⟨low, high, rfl, means_range hi h⟩
      · cases h
  · cases h

/-- Opposite keys have opposite alternatives. There are several of them only in a search, where they
are the patterns. -/
theorem exists_oppose (hopposes : k.Opposes k')
    (hi : (Identifier.ofColumn k.column s.tablePrefix).IsColumn) (h : k.toSql s v = .ok f)
    (h' : k'.toSql s v = .ok f') (ρ : String → Constant) :
    ∃ as bs, Fragment.Oppose (f.settle ρ) (f'.settle ρ) as bs ∧
      if k.operator = some (.like false) then
        as = (patterns v).map (.like (Identifier.ofColumn k.column s.tablePrefix) false)
      else ∃ a, as = [a] := by
  rcases hopposes.operator.cases with ⟨hop, hop'⟩ | ⟨hop, hop'⟩ | ⟨hop, hop'⟩
  · obtain ⟨a, hatoms, hmeans⟩ := exists_inferred (ρ := ρ) hi
      (Fragment.isSettled_column s k.column) k.raw v
    simp only [toSql, hop] at h
    simp only [toSql, hop', hopposes.column] at h'
    have hoppose := Fragment.Oppose.of_atom hatoms (hmeans rfl h) (hmeans hopposes.raw h')
    exact ⟨_, _, hoppose, by simp [hop]⟩
  · obtain ⟨low, high, rfl, hmeans⟩ := means_between (ρ := ρ) hop hi h
    obtain ⟨low', high', hbounds, hmeans'⟩ :=
      means_between (ρ := ρ) hop' (hopposes.column ▸ hi) h'
    cases hbounds
    rw [hopposes.column] at hmeans'
    exact ⟨_, _, .of_atom (.between _ _ _) hmeans hmeans', by simp [hop]⟩
  · obtain ⟨hne, hmeans⟩ := means_like (ρ := ρ) hop hi h
    obtain ⟨-, hmeans'⟩ := means_like (ρ := ρ) hop' (hopposes.column ▸ hi) h'
    rw [hopposes.column] at hmeans'
    refine ⟨_, _, ⟨by simpa using hne, ?_, hmeans, hmeans'⟩, by rw [if_pos hop]⟩
    rw [List.forall₂_map_left_iff, List.forall₂_map_right_iff, List.forall₂_same]
    exact fun pattern _ => .like _ pattern

theorem truth?_text {X : Type} (c : Collation X) (row : Row X) {key : String}
    (hk : LeafKey.parse key = .ok k) (hpre : s.quoteStyle.AbsentFrom s.tablePrefix)
    (hcall : k.verbatim? v = none) (h : k.toSql s v = .ok f) (ρ : String → Constant) :
    Sql.truth? c row s (f.text s) = (f.settle ρ).truth? c row := by
  have hcolumn := Key.absentFrom_column (Key.parse_eq_ok hk).2 s.quoteStyle
  rw [isSettled_toSql hcall h, Fragment.truth?_text]
  exact sound_toSql (s.sound_column hcolumn hpre) (by simp [hcall]) h

/-- The truth of a search: whether one of its patterns is matched, or one is not. -/
theorem truth?_like {X : Type} (c : Collation X) (row : Row X) {key : String}
    (hk : LeafKey.parse key = .ok k) (hpre : s.quoteStyle.AbsentFrom s.tablePrefix)
    {negated : Bool} (hop : k.operator = some (.like negated)) (h : k.toSql s v = .ok f) :
    Sql.truth? c row s (f.text s) = some (.any ((patterns v).map fun pattern =>
      .negateIf negated (c.testLike (row.content (Identifier.ofColumn k.column s.tablePrefix))
        pattern))) := by
  have hcall : k.verbatim? v = none := by simp [verbatim?, hop]
  obtain ⟨-, hmeans⟩ := means_like (ρ := Constant.ofText) hop (isColumn_of_parse hk _) h
  rw [truth?_text c row hk hpre hcall h Constant.ofText,
    (hmeans.of_factor .or).truth? c row, List.map_map]
  rfl

/-- The fragments of opposite keys have opposite truth values in every row, except where a search
has several patterns and the content of the column matches some of them and not all. What holds of
the fragments with their calls settled holds of the texts that are written, if no call is let
through. -/
theorem truth?_opposite_iff {X : Type} (c : Collation X) (row : Row X) {key key' : String}
    (hk : LeafKey.parse key = .ok k) (hk' : LeafKey.parse key' = .ok k') (hopposes : k.Opposes k')
    (h : k.toSql s v = .ok f) (h' : k'.toSql s v = .ok f') (ρ : String → Constant) :
    ∃ t t', (f.settle ρ).truth? c row = some t ∧ (f'.settle ρ).truth? c row = some t' ∧
      (s.quoteStyle.AbsentFrom s.tablePrefix → k.verbatim? v = none →
        Sql.truth? c row s (f.text s) = some t ∧ Sql.truth? c row s (f'.text s) = some t') ∧
      (t' = t.not ↔ ¬ (k.operator = some (.like false) ∧
        ∃ x, row.content (Identifier.ofColumn k.column s.tablePrefix) = some x ∧
          (∃ p ∈ patterns v, c.like x p = true) ∧ ∃ p ∈ patterns v, c.like x p = false)) := by
  obtain ⟨as, bs, hoppose, has⟩ := exists_oppose hopposes (isColumn_of_parse hk _) h h' ρ
  obtain ⟨t, t', ht, ht', hiff⟩ := hoppose.exists_truth? c row
  refine ⟨t, t', ht, ht', fun hpre hcall => ?_, hiff.trans ?_⟩
  · rw [truth?_text c row hk hpre hcall h ρ,
      truth?_text c row hk' hpre ((hopposes.verbatim? v).trans hcall) h' ρ]
    exact ⟨ht, ht'⟩
  · split at has
    · next hop =>
        subst has
        rw [forall_like_truth_eq_iff]
        simp [hop]
    · next hop =>
        obtain ⟨a, rfl⟩ := has
        simp [hop]

/-- A row in which every column holds the same text. -/
def sameText (text : String) : Row String := ⟨fun _ => some text, fun _ _ => .unknown⟩

/-- Neither membership among items of which one is `NULL` nor its negation is known of a text that
is no item. -/
theorem truth?_opposite_member :
    Sql.truth? .texts (sameText "b") ⟨.mysql, .backtick, "w_"⟩
        "`w_p`.`tag` IN ('a'' OR 1=1',NULL,3)" = some .unknown ∧
      Sql.truth? .texts (sameText "b") ⟨.mysql, .backtick, "w_"⟩
        "`w_p`.`tag` NOT IN ('a'' OR 1=1',NULL,3)" = some .unknown := by
  let s : Settings := ⟨.mysql, .backtick, "w_"⟩
  let k : LeafKey := ⟨false, "p.tag", none⟩
  let k' : LeafKey := ⟨false, "p.tag", some .differs⟩
  let v : Value := .list [.text "a' OR 1=1", .null, .int 3]
  have hk : LeafKey.parse "p.tag" = .ok k := by decide +kernel
  have hk' : LeafKey.parse "p.tag[!]" = .ok k' := by decide +kernel
  have hmember : (k.toSql s v).map (Fragment.text s) =
      .ok "`w_p`.`tag` IN ('a'' OR 1=1',NULL,3)" := by decide +kernel
  have hnone : (k'.toSql s v).map (Fragment.text s) =
      .ok "`w_p`.`tag` NOT IN ('a'' OR 1=1',NULL,3)" := by decide +kernel
  obtain ⟨f, hf, htext⟩ := Result.map_eq_ok_iff.1 hmember
  obtain ⟨f', hf', htext'⟩ := Result.map_eq_ok_iff.1 hnone
  obtain ⟨t, t', -, -, hwritten, hnot⟩ := truth?_opposite_iff .texts (sameText "b") hk hk'
    ⟨rfl, rfl, .inferred⟩ hf hf' Constant.ofText
  obtain ⟨ht, ht'⟩ := hwritten (by decide) rfl
  have hmeans : Fragment.Means .factor f fun σ => (k.alternatives s v).any σ :=
    means_toSql (isColumn_of_parse hk _) rfl hf
  have hunknown : f.truth? .texts (sameText "b") = some .unknown := by
    rw [(hmeans.of_factor .or).truth?]
    decide +kernel
  have htruth : t = .unknown := by
    rw [truth?_text .texts _ hk (by decide) rfl hf Constant.ofText, isSettled_toSql rfl hf,
      hunknown] at ht
    exact (Option.some.inj ht).symm
  rw [← htext, ← htext', ht, ht', hnot.2 (by simp [k]), htruth]
  exact ⟨rfl, rfl⟩

/-- A text that matches one of two terms satisfies the search for them, and its negation as well. -/
theorem truth?_like_both :
    (Conditions.toSql ⟨.postgres, .ansi, ""⟩ .and
        [("name[~]", .value (.list [.text "ali", .text "bob"]))]).map
        (Fragment.text ⟨.postgres, .ansi, ""⟩) =
        .ok "(\"name\" LIKE '%ali%' OR \"name\" LIKE '%bob%')" ∧
      (Conditions.toSql ⟨.postgres, .ansi, ""⟩ .and
        [("name[!~]", .value (.list [.text "ali", .text "bob"]))]).map
        (Fragment.text ⟨.postgres, .ansi, ""⟩) =
        .ok "(\"name\" NOT LIKE '%ali%' OR \"name\" NOT LIKE '%bob%')" ∧
      Sql.truth? .texts (sameText "ali") ⟨.postgres, .ansi, ""⟩
        "(\"name\" LIKE '%ali%' OR \"name\" LIKE '%bob%')" = some .true ∧
      Sql.truth? .texts (sameText "ali") ⟨.postgres, .ansi, ""⟩
        "(\"name\" NOT LIKE '%ali%' OR \"name\" NOT LIKE '%bob%')" = some .true := by
  let s : Settings := ⟨.postgres, .ansi, ""⟩
  let k : Bool → LeafKey := fun negated => ⟨false, "name", some (.like negated)⟩
  let v : Value := .list [.text "ali", .text "bob"]
  have hk : LeafKey.parse "name[~]" = .ok (k false) := by decide +kernel
  have hk' : LeafKey.parse "name[!~]" = .ok (k true) := by decide +kernel
  have hlike : ((k false).toSql s v).map (Fragment.text s) =
      .ok "(\"name\" LIKE '%ali%' OR \"name\" LIKE '%bob%')" := by decide +kernel
  have hunlike : ((k true).toSql s v).map (Fragment.text s) =
      .ok "(\"name\" NOT LIKE '%ali%' OR \"name\" NOT LIKE '%bob%')" := by decide +kernel
  refine ⟨by decide +kernel, by decide +kernel, ?_, ?_⟩
  · obtain ⟨f, hf, htext⟩ := Result.map_eq_ok_iff.1 hlike
    rw [← htext, truth?_like .texts (sameText "ali") hk (by decide) rfl hf]
    decide +kernel
  · obtain ⟨f, hf, htext⟩ := Result.map_eq_ok_iff.1 hunlike
    rw [← htext, truth?_like .texts (sameText "ali") hk' (by decide) rfl hf]
    decide +kernel

end LeafKey

end KeyedQuery
