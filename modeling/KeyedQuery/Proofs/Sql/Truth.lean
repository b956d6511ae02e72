import KeyedQuery.Proofs.Sql.Meaning

/-!
# Truth of predicates in a row

A predicate of SQL is true, false or unknown in a row: a comparison with `NULL`, on either side, is
unknown. Membership in a list is the disjunction of equalities, a range has both of its bounds, and
a negated predicate has the opposite truth value. How contents of columns compare with constants is
a matter of collation, which is left open.

A formula has no negation, so its three-valued truth is settled by its truth under two assignments:
the one that takes the unknown for false, and the one that takes it for true.
-/

namespace KeyedQuery

namespace Sql

inductive Truth where
  | false
  | unknown
  | true
deriving DecidableEq, Repr

namespace Truth

def ofBool (b : Bool) : Truth := if b then true else false

def not : Truth → Truth
  | false => true
  | unknown => unknown
  | true => false

def and : Truth → Truth → Truth
  | false, _ => false
  | true, t => t
  | unknown, false => false
  | unknown, _ => unknown

def or : Truth → Truth → Truth
  | true, _ => true
  | false, t => t
  | unknown, true => true
  | unknown, _ => unknown

def negateIf (negated : Bool) (t : Truth) : Truth := if negated then t.not else t

def any (ts : List Truth) : Truth := ts.foldr or false

@[simp] theorem any_nil : any [] = false := rfl

@[simp] theorem any_cons (t : Truth) (ts : List Truth) : any (t :: ts) = t.or (any ts) := rfl

@[simp] theorem not_not (t : Truth) : t.not.not = t := by
  cases t <;> rfl

@[simp] theorem and_eq_true_iff {t u : Truth} : t.and u = true ↔ t = true ∧ u = true := by
  cases t <;> cases u <;> decide

@[simp] theorem and_eq_false_iff {t u : Truth} : t.and u = false ↔ t = false ∨ u = false := by
  cases t <;> cases u <;> decide

@[simp] theorem or_eq_true_iff {t u : Truth} : t.or u = true ↔ t = true ∨ u = true := by
  cases t <;> cases u <;> decide

@[simp] theorem or_eq_false_iff {t u : Truth} : t.or u = false ↔ t = false ∧ u = false := by
  cases t <;> cases u <;> decide

theorem any_eq_true_iff {ts : List Truth} : any ts = true ↔ true ∈ ts := by
  induction ts with
  | nil => simp
  | cons t ts ih => rw [any_cons, or_eq_true_iff, ih, List.mem_cons, eq_comm]

theorem any_eq_false_iff {ts : List Truth} : any ts = false ↔ ∀ t ∈ ts, t = false := by
  induction ts with
  | nil => simp
  | cons t ts ih => simp [ih]

theorem eq_of_iff {t u : Truth} (htrue : t = true ↔ u = true) (hfalse : t = false ↔ u = false) :
    t = u := by
  revert htrue hfalse
  cases t <;> cases u <;> decide

theorem any_of_forall_eq {ts : List Truth} {u : Truth} (hne : ts ≠ []) (h : ∀ t ∈ ts, t = u) :
    any ts = u := by
  obtain ⟨t, ht⟩ := List.exists_mem_of_ne_nil ts hne
  obtain rfl := h t ht
  exact eq_of_iff (any_eq_true_iff.trans ⟨fun hmem => (h _ hmem).symm, fun htrue => htrue ▸ ht⟩)
    (any_eq_false_iff.trans ⟨fun hall => hall t ht, fun hfalse x hx => (h x hx).trans hfalse⟩)

/-- A disjunction of opposites is the opposite of the disjunction only if all of its members are
alike. -/
theorem any_map_not_eq_iff {ts : List Truth} (hne : ts ≠ []) :
    any (ts.map not) = (any ts).not ↔ ∀ t ∈ ts, ∀ u ∈ ts, t = u := by
  constructor
  · intro h
    have halike : ∃ v, ∀ t ∈ ts, t = v := by
      cases hany : any ts with
      | false => exact ⟨false, any_eq_false_iff.1 hany⟩
      | true =>
          rw [hany] at h
          refine ⟨true, fun t ht => ?_⟩
          have hnot := any_eq_false_iff.1 h t.not (List.mem_map_of_mem ht)
          rw [← not_not t, hnot]
          rfl
      | unknown =>
          -- Neither disjunction is true, so no member is true and none is false.
          rw [hany] at h
          refine ⟨unknown, fun t ht => ?_⟩
          cases t with
          | unknown => rfl
          | true => simp [any_eq_true_iff.2 ht] at hany
          | false => simp [any_eq_true_iff.2 (List.mem_map_of_mem (f := not) ht), not] at h
    obtain ⟨v, hv⟩ := halike
    exact fun t ht u hu => (hv t ht).trans (hv u hu).symm
  · intro h
    obtain ⟨v, hv⟩ := List.exists_mem_of_ne_nil ts hne
    have hall : ∀ t ∈ ts, t = v := fun t ht => h t ht v hv
    rw [any_of_forall_eq hne hall]
    refine any_of_forall_eq (by simpa using hne) ?_
    rw [List.forall_mem_map]
    exact fun t ht => congrArg not (hall t ht)

end Truth

end Sql

open Sql

/-! ## Formulas -/

def Conjunctor.applyTruth : Conjunctor → Truth → Truth → Truth
  | and => Truth.and
  | or => Truth.or

namespace Sql.Formula

def truth (τ : Atom → Truth) : Formula → Truth
  | atom a => τ a
  | join c left right => c.applyTruth (left.truth τ) (right.truth τ)

variable (τ : Atom → Truth) (e : Formula)

/-- A formula is true if it is with the unknown taken for false. -/
theorem truth_eq_true_iff : e.truth τ = .true ↔ e.eval (fun a => decide (τ a = .true)) = true := by
  induction e with
  | atom a => simp [truth, eval]
  | join c left right ihl ihr =>
      cases c with
      | and =>
          rw [truth, eval, Conjunctor.applyTruth, Conjunctor.apply, Truth.and_eq_true_iff, ihl,
            ihr, Bool.and_eq_true_iff]
      | or =>
          rw [truth, eval, Conjunctor.applyTruth, Conjunctor.apply, Truth.or_eq_true_iff, ihl,
            ihr, Bool.or_eq_true_iff]

theorem truth_eq_false_iff :
    e.truth τ = .false ↔ e.eval (fun a => decide (τ a ≠ .false)) = false := by
  induction e with
  | atom a => simp [truth, eval]
  | join c left right ihl ihr =>
      cases c with
      | and =>
          rw [truth, eval, Conjunctor.applyTruth, Conjunctor.apply, Truth.and_eq_false_iff, ihl,
            ihr, Bool.and_eq_false_iff]
      | or =>
          rw [truth, eval, Conjunctor.applyTruth, Conjunctor.apply, Truth.or_eq_false_iff, ihl,
            ihr, Bool.or_eq_false_iff]

/-- A formula that means alternatives is true, false or unknown as their disjunction is. -/
theorem truth_eq_any {atoms : List Atom} (h : ∀ σ, e.eval σ = atoms.any σ) :
    e.truth τ = Truth.any (atoms.map τ) := by
  refine Truth.eq_of_iff ?_ ?_
  · rw [truth_eq_true_iff, h, Truth.any_eq_true_iff]
    simp
  · rw [truth_eq_false_iff, h, Truth.any_eq_false_iff]
    simp

end Sql.Formula

/-! ## Rows -/

namespace Sql

def Sign.holds : Sign → Ordering → Bool
  | equal, o => o.isEq
  | differs, o => !o.isEq
  | less, o => o.isLT
  | lessOrEqual, o => o.isLE
  | greater, o => o.isGT
  | greaterOrEqual, o => o.isGE

/-- How the contents of columns compare with constants. Nothing is asked of it, so that what is
proved for every collation holds whatever a server compares by. -/
structure Collation (X : Type) where
  /-- The order of a content and a constant that is not `NULL`. -/
  compare : X → Scalar → Ordering
  /-- Whether a content matches a pattern. -/
  like : X → String → Bool

/-- Whether characters match a pattern: a percent sign stands for any characters, an underscore for
any single one, and every other character for itself. -/
def matchesPattern : List Char → List Char → Bool
  | [], cs => cs.isEmpty
  | '%' :: pattern, cs => cs.tails.any (matchesPattern pattern)
  | _ :: _, [] => false
  | p :: pattern, c :: cs => (p == '_' || p == c) && matchesPattern pattern cs

/-- Texts that are compared character by character, with numbers as they are written. -/
def Collation.texts : Collation String where
  compare
    | _, .null => .eq
    | x, .number n => Ord.compare x n
    | x, .text t => Ord.compare x t
  like x pattern := matchesPattern pattern.toList x.toList

structure Row (X : Type) where
  /-- What a column holds, if it is not `NULL`. -/
  content : Identifier → Option X
  /-- Whether a full-text search in some columns finds the row. -/
  found : List Identifier → String → Truth

variable {X : Type} (c : Collation X) (row : Row X)

namespace Collation

def test (sign : Sign) : Option X → Scalar → Truth
  | none, _ => .unknown
  | some _, .null => .unknown
  | some x, v => .ofBool (sign.holds (c.compare x v))

/-- The truth of a search. -/
def testLike : Option X → String → Truth
  | none, _ => .unknown
  | some x, pattern => .ofBool (c.like x pattern)

end Collation

/-- The truth of an atomic predicate in a row. -/
def Atom.truth : Atom → Truth
  | compare column sign value => c.test sign (row.content column) value
  | isNull column negated => .negateIf negated (.ofBool (row.content column).isNone)
  | member column negated items =>
      .negateIf negated (.any (items.map (c.test .equal (row.content column))))
  | like column negated pattern => .negateIf negated (c.testLike (row.content column) pattern)
  | between column negated low high =>
      .negateIf negated ((c.test .greaterOrEqual (row.content column) low).and
        (c.test .lessOrEqual (row.content column) high))
  | constant value => .ofBool value
  | search columns keyword => row.found columns keyword

inductive Atom.Opposes : Atom → Atom → Prop
  | compare (column : Identifier) (value : Scalar) :
      Opposes (.compare column .equal value) (.compare column .differs value)
  | isNull (column : Identifier) : Opposes (.isNull column false) (.isNull column true)
  | member (column : Identifier) (items : List Scalar) :
      Opposes (.member column false items) (.member column true items)
  | like (column : Identifier) (pattern : String) :
      Opposes (.like column false pattern) (.like column true pattern)
  | between (column : Identifier) (low high : Scalar) :
      Opposes (.between column false low high) (.between column true low high)
  | constant : Opposes (.constant false) (.constant true)

theorem Atom.Opposes.truth {a b : Atom} (h : a.Opposes b) :
    b.truth c row = (a.truth c row).not := by
  cases h with
  | compare column value =>
      simp only [Atom.truth]
      cases row.content column with
      | none => rfl
      | some x =>
          cases value with
          | null => rfl
          | number n =>
              simp only [Collation.test, Sign.holds]
              cases c.compare x (.number n) <;> rfl
          | text t =>
              simp only [Collation.test, Sign.holds]
              cases c.compare x (.text t) <;> rfl
  | isNull column => rfl
  | member column items => rfl
  | like column pattern => rfl
  | between column low high => rfl
  | constant => rfl

/-- The truth of a text in a row, if it is a predicate. -/
def truth? (s : Settings) (text : String) : Option Truth :=
  (Formula.parse? s text).map (Formula.truth (Atom.truth c row))

end Sql

namespace Fragment

variable {X : Type} (c : Collation X) (row : Row X)

def truth? (f : Fragment) : Option Truth :=
  ((Symbol.readAll? f.tokens).bind Formula.read?).map (Formula.truth (Atom.truth c row))

theorem truth?_text {s : Settings} {f : Fragment} (h : Sound s f) :
    Sql.truth? c row s (f.text s) = f.truth? c row := by
  rw [Sql.truth?, parse?_text h, truth?]

/-- A fragment that means alternatives is true, false or unknown as their disjunction is. -/
theorem Means.truth? {f : Fragment} {atoms : List Atom}
    (h : Means .disjunction f fun σ => atoms.any σ) :
    f.truth? c row = some (.any (atoms.map (Atom.truth c row))) := by
  obtain ⟨e, xs, htokens, hwf, hderives, heval⟩ := h
  rw [Fragment.truth?, (Symbol.readAll?_eq_some_iff _ xs).2 ⟨htokens, hwf⟩, Option.bind_some,
    (Formula.read?_eq_some_iff xs e).2 hderives, Option.map_some, e.truth_eq_any _ heval]

end Fragment

end KeyedQuery
