import KeyedQuery.Proofs.Sql.Atom

/-!
# Formulas

A predicate of SQL is put together from atomic predicates with `AND`, `OR` and parentheses. The
grammar is `Formula.Derives`: `OR` binds weakest, then `AND`, and both associate to the left. The
reader `Formula.read?` walks over the symbols once, with a frame for every parenthesis that is open.
It accepts what the grammar derives and nothing else, so a text has one formula at most.
-/

namespace KeyedQuery

def Conjunctor.apply : Conjunctor → Bool → Bool → Bool
  | and => Bool.and
  | or => Bool.or

namespace Sql

/-- A part of a predicate, as far as conjunctors and parentheses go. -/
inductive Symbol where
  | opening
  | closing
  | conjunctor (c : Conjunctor)
  | atom (a : Atom)
deriving DecidableEq, Repr

namespace Symbol

def keyword : Conjunctor → Keyword
  | .and => .and
  | .or => .or

def tokens : Symbol → List Token
  | opening => [.mark '(']
  | closing => [.mark ')']
  | conjunctor c => [.keyword (keyword c)]
  | atom a => a.tokens

def WellFormed : Symbol → Prop
  | opening => True
  | closing => True
  | conjunctor _ => True
  | atom a => a.WellFormed

def read? : List Token → Option (Symbol × List Token)
  | .mark '(' :: rest => some (opening, rest)
  | .mark ')' :: rest => some (closing, rest)
  | .keyword .and :: rest => some (conjunctor .and, rest)
  | .keyword .or :: rest => some (conjunctor .or, rest)
  | ts => (Atom.read? ts).map (Prod.map atom id)

theorem eq_of_read? {ts rest : List Token} {x : Symbol} (h : read? ts = some (x, rest)) :
    ts = x.tokens ++ rest ∧ x.WellFormed := by
  unfold read? at h
  split at h
  · obtain ⟨rfl, rfl⟩ := Prod.mk.inj (Option.some.inj h)
    exact ⟨rfl, trivial⟩
  · obtain ⟨rfl, rfl⟩ := Prod.mk.inj (Option.some.inj h)
    exact ⟨rfl, trivial⟩
  · obtain ⟨rfl, rfl⟩ := Prod.mk.inj (Option.some.inj h)
    exact ⟨rfl, trivial⟩
  · obtain ⟨rfl, rfl⟩ := Prod.mk.inj (Option.some.inj h)
    exact ⟨rfl, trivial⟩
  · simp only [Option.map_eq_some_iff, Prod.map_apply, id_eq, Prod.mk.injEq, Prod.exists] at h
    obtain ⟨a, after, ha, rfl, rfl⟩ := h
    exact Atom.eq_of_read? ha

theorem tokens_ne_nil (x : Symbol) : x.tokens ≠ [] := by
  cases x with
  | opening => simp [tokens]
  | closing => simp [tokens]
  | conjunctor c => simp [tokens]
  | atom a => exact a.tokens_ne_nil

theorem length_of_read? {ts rest : List Token} {x : Symbol} (h : read? ts = some (x, rest)) :
    rest.length < ts.length := by
  have hpos := List.length_pos_iff.2 x.tokens_ne_nil
  rw [(eq_of_read? h).1, List.length_append]
  omega

theorem read?_tokens {x : Symbol} (h : x.WellFormed) (rest : List Token) :
    read? (x.tokens ++ rest) = some (x, rest) := by
  cases x with
  | opening => rfl
  | closing => rfl
  | conjunctor c => cases c <;> rfl
  | atom a =>
      have hread := Atom.read?_tokens h rest
      have hopen : Identifier.Part.ofToken? (.mark '(') = none := rfl
      have hclose : Identifier.Part.ofToken? (.mark ')') = none := rfl
      have hkeyword : ∀ k, Identifier.Part.ofToken? (.keyword k) = none := fun _ => rfl
      have hcase : read? (a.tokens ++ rest) =
          (Atom.read? (a.tokens ++ rest)).map (Prod.map atom id) := by
        rw [read?]
        all_goals
          rintro tail htail
          rw [htail] at hread
          simp [Atom.read?, Identifier.read?_cons_eq_none, hopen, hclose, hkeyword] at hread
      rw [show (atom a).tokens = a.tokens from rfl, hcase, hread]
      rfl

def readAll? (ts : List Token) : Option (List Symbol) :=
  if ts = [] then some []
  else
    match h : read? ts with
    | none => none
    | some (x, rest) =>
        have := length_of_read? h
        (readAll? rest).map (x :: ·)
termination_by ts.length

theorem readAll?_nil : readAll? [] = some [] := by
  rw [readAll?, if_pos rfl]

theorem readAll?_of_read? {ts rest : List Token} {x : Symbol} (h : read? ts = some (x, rest)) :
    readAll? ts = (readAll? rest).map (x :: ·) := by
  have hne : ts ≠ [] := by
    rintro rfl
    simp [read?, Atom.read?, Identifier.read?] at h
  rw [readAll?, if_neg hne]
  split
  · next hnone => rw [h] at hnone; simp at hnone
  · next y after hsome =>
      rw [h] at hsome
      obtain ⟨rfl, rfl⟩ := Prod.mk.inj (Option.some.inj hsome)
      rfl

/-- The symbols that are read are well-formed, and their tokens are all there is. -/
theorem readAll?_eq_some_iff (ts : List Token) (xs : List Symbol) :
    readAll? ts = some xs ↔ ts = xs.flatMap tokens ∧ ∀ x ∈ xs, x.WellFormed := by
  constructor
  · intro h
    induction xs generalizing ts with
    | nil =>
        rw [readAll?] at h
        split at h
        · next hnil => exact ⟨hnil, by simp⟩
        · split at h <;> simp at h
    | cons x xs ih =>
        rw [readAll?] at h
        split at h
        · simp at h
        split at h
        · simp at h
        · next y rest hread =>
            simp only [Option.map_eq_some_iff, List.cons.injEq] at h
            obtain ⟨ys, hys, rfl, rfl⟩ := h
            obtain ⟨rfl, hwf⟩ := eq_of_read? hread
            obtain ⟨rfl, hall⟩ := ih rest hys
            exact ⟨by simp, List.forall_mem_cons.2 ⟨hwf, hall⟩⟩
  · rintro ⟨rfl, hall⟩
    induction xs with
    | nil => exact readAll?_nil
    | cons x xs ih =>
        obtain ⟨hx, hxs⟩ := List.forall_mem_cons.1 hall
        rw [List.flatMap_cons, readAll?_of_read? (read?_tokens hx _), ih hxs]
        rfl

end Symbol

/-- A predicate of SQL. -/
inductive Formula where
  | atom (a : Atom)
  | join (c : Conjunctor) (left right : Formula)
deriving DecidableEq, Repr

namespace Formula

def eval (σ : Atom → Bool) : Formula → Bool
  | atom a => σ a
  | join c left right => c.apply (left.eval σ) (right.eval σ)

/-- How loosely the outermost conjunctor of a formula may bind. -/
inductive Level where
  | factor
  | conjunction
  | disjunction
deriving DecidableEq, Repr

/-- The grammar of formulas. The level is an index of one relation, so that induction over a
derivation goes through factors, conjunctions and disjunctions at once. -/
inductive Derives : Level → Formula → List Symbol → Prop where
  | atom (a : Atom) : Derives .factor (.atom a) [.atom a]
  | parens {e : Formula} {xs : List Symbol} (h : Derives .disjunction e xs) :
      Derives .factor e (.opening :: xs ++ [.closing])
  | factor {e : Formula} {xs : List Symbol} (h : Derives .factor e xs) : Derives .conjunction e xs
  | and {e₁ e₂ : Formula} {xs ys : List Symbol} (h₁ : Derives .conjunction e₁ xs)
      (h₂ : Derives .factor e₂ ys) :
      Derives .conjunction (.join .and e₁ e₂) (xs ++ .conjunctor .and :: ys)
  | conjunction {e : Formula} {xs : List Symbol} (h : Derives .conjunction e xs) :
      Derives .disjunction e xs
  | or {e₁ e₂ : Formula} {xs ys : List Symbol} (h₁ : Derives .disjunction e₁ xs)
      (h₂ : Derives .conjunction e₂ ys) :
      Derives .disjunction (.join .or e₁ e₂) (xs ++ .conjunctor .or :: ys)

/-- What has been read of a predicate up to an operand: the disjuncts that are complete, and the
conjuncts before the operand. -/
structure Frame where
  disjuncts : Option Formula := none
  conjuncts : Option Formula := none

def after (c : Conjunctor) : Option Formula → Formula → Formula
  | none, e => e
  | some before, e => .join c before e

namespace Frame

def conjunction (f : Frame) (operand : Formula) : Formula := after .and f.conjuncts operand

def disjunction (f : Frame) (operand : Formula) : Formula :=
  after .or f.disjuncts (f.conjunction operand)

def advance (f : Frame) (operand : Formula) : Conjunctor → Frame
  | .and => { f with conjuncts := some (f.conjunction operand) }
  | .or => { disjuncts := some (f.disjunction operand) }

end Frame

/-- Reads symbols inside a frame and the frames around it, after an operand or in front of one. -/
def run : Frame → List Frame → Option Formula → List Symbol → Option Formula
  | f, outer, none, .atom a :: rest => run f outer (some (.atom a)) rest
  | f, outer, none, .opening :: rest => run {} (f :: outer) none rest
  | f, outer, some e, .conjunctor c :: rest => run (f.advance e c) outer none rest
  | f, g :: outer, some e, .closing :: rest => run g outer (some (f.disjunction e)) rest
  | f, [], some e, [] => some (f.disjunction e)
  | _, _, _, _ => none

def read? (xs : List Symbol) : Option Formula := run {} [] none xs

def parse? (s : Settings) (text : String) : Option Formula :=
  (Symbol.readAll? (tokens (scan s text.toList))).bind read?

/-! ## The reader accepts what the grammar derives -/

/-- What the reader has after a formula of a level that it started to read in the frame `f`: the
frame `g` and an operand. -/
def Level.Ends (f g : Frame) (operand e : Formula) : Level → Prop
  | factor => g = f ∧ operand = e
  | conjunction => f.conjuncts = none → g.disjuncts = f.disjuncts ∧ g.conjunction operand = e
  | disjunction => f = {} → g.disjunction operand = e

theorem run_of_derives {level : Level} {e : Formula} {xs : List Symbol}
    (h : Derives level e xs) (f : Frame) :
    ∃ g operand, level.Ends f g operand e ∧
      ∀ outer rest, run f outer none (xs ++ rest) = run g outer (some operand) rest := by
  induction h generalizing f with
  | atom a => exact ⟨f, .atom a, ⟨rfl, rfl⟩, fun _ _ => rfl⟩
  | @parens e xs _ ih =>
      obtain ⟨g, operand, hends, hrun⟩ := ih {}
      refine ⟨f, e, ⟨rfl, rfl⟩, fun outer rest => ?_⟩
      rw [List.append_assoc, List.cons_append, run, List.singleton_append, hrun, run, hends rfl]
  | factor _ ih =>
      obtain ⟨g, operand, ⟨rfl, rfl⟩, hrun⟩ := ih f
      exact ⟨g, operand, fun hf => ⟨rfl, by simp [Frame.conjunction, hf, after]⟩, hrun⟩
  | @and e₁ e₂ xs ys _ _ ih₁ ih₂ =>
      obtain ⟨g, operand, hends, hrun⟩ := ih₁ f
      obtain ⟨g', operand', ⟨rfl, rfl⟩, hrun'⟩ := ih₂ (g.advance operand .and)
      refine ⟨g.advance operand .and, operand', fun hf => ?_, fun outer rest => ?_⟩
      · obtain ⟨hdisjuncts, hconjunction⟩ := hends hf
        exact ⟨hdisjuncts, by rw [← hconjunction]; rfl⟩
      · rw [List.append_assoc, List.cons_append, hrun, run, hrun']
  | conjunction _ ih =>
      obtain ⟨g, operand, hends, hrun⟩ := ih f
      refine ⟨g, operand, fun hf => ?_, hrun⟩
      subst hf
      obtain ⟨hdisjuncts, hconjunction⟩ := hends rfl
      rw [Frame.disjunction, hdisjuncts, hconjunction]
      rfl
  | @or e₁ e₂ xs ys _ _ ih₁ ih₂ =>
      obtain ⟨g, operand, hends, hrun⟩ := ih₁ f
      obtain ⟨g', operand', hends', hrun'⟩ := ih₂ (g.advance operand .or)
      refine ⟨g', operand', fun hf => ?_, fun outer rest => ?_⟩
      · obtain ⟨hdisjuncts, hconjunction⟩ := hends' rfl
        rw [Frame.disjunction, hdisjuncts, hconjunction, ← hends hf]
        rfl
      · rw [List.append_assoc, List.cons_append, hrun, run, hrun']

/-- The symbols in front of an operand that belong to one conjunctor. -/
def Before (c : Conjunctor) (level : Level) : Option Formula → List Symbol → Prop
  | none, ps => ps = []
  | some e, ps => ∃ xs, Derives level e xs ∧ ps = xs ++ [.conjunctor c]

namespace Frame

def Reads (f : Frame) (ps : List Symbol) : Prop :=
  ∃ ds cs, Before .or .disjunction f.disjuncts ds ∧ Before .and .conjunction f.conjuncts cs ∧
    ps = ds ++ cs

/-- The symbols that frames around a frame stand for. -/
def ReadsAll : List Frame → List Symbol → Prop
  | [], ps => ps = []
  | f :: outer, ps => ∃ qs rs, ReadsAll outer qs ∧ f.Reads rs ∧ ps = qs ++ rs ++ [.opening]

theorem reads_empty : Reads {} [] := ⟨[], [], rfl, rfl, rfl⟩

theorem derives_conjunction {f : Frame} {e : Formula} {cs xs : List Symbol}
    (hcs : Before .and .conjunction f.conjuncts cs) (he : Derives .factor e xs) :
    Derives .conjunction (f.conjunction e) (cs ++ xs) := by
  unfold conjunction
  cases hf : f.conjuncts with
  | none =>
      rw [hf] at hcs
      obtain rfl : cs = [] := hcs
      exact .factor he
  | some before =>
      rw [hf] at hcs
      obtain ⟨ys, hbefore, rfl⟩ := hcs
      rw [List.append_assoc, List.singleton_append]
      exact .and hbefore he

theorem derives_disjunction {f : Frame} {e : Formula} {ps xs : List Symbol} (hf : f.Reads ps)
    (he : Derives .factor e xs) : Derives .disjunction (f.disjunction e) (ps ++ xs) := by
  obtain ⟨ds, cs, hds, hcs, rfl⟩ := hf
  have hconjunction := derives_conjunction hcs he
  unfold disjunction
  cases hf : f.disjuncts with
  | none =>
      rw [hf] at hds
      obtain rfl : ds = [] := hds
      exact .conjunction hconjunction
  | some before =>
      rw [hf] at hds
      obtain ⟨ys, hbefore, rfl⟩ := hds
      rw [List.append_assoc, List.append_assoc, List.singleton_append]
      exact .or hbefore hconjunction

theorem reads_advance {f : Frame} {e : Formula} {ps xs : List Symbol} (hf : f.Reads ps)
    (he : Derives .factor e xs) (c : Conjunctor) :
    (f.advance e c).Reads (ps ++ xs ++ [.conjunctor c]) := by
  cases c with
  | and =>
      obtain ⟨ds, cs, hds, hcs, rfl⟩ := hf
      exact ⟨ds, cs ++ xs ++ [.conjunctor .and], hds, ⟨_, derives_conjunction hcs he, rfl⟩,
        by simp⟩
  | or =>
      exact ⟨ps ++ xs ++ [.conjunctor .or], [], ⟨_, derives_disjunction hf he, rfl⟩, rfl,
        by simp⟩

end Frame

def Operand : Option Formula → List Symbol → Prop
  | none, xs => xs = []
  | some e, xs => Derives .factor e xs

theorem derives_of_run {f : Frame} {outer : List Frame} {operand : Option Formula}
    {rest : List Symbol} {e : Formula} (h : run f outer operand rest = some e)
    {qs ps xs : List Symbol} (houter : Frame.ReadsAll outer qs) (hf : f.Reads ps)
    (hoperand : Operand operand xs) : Derives .disjunction e (qs ++ ps ++ xs ++ rest) := by
  fun_induction run f outer operand rest generalizing qs ps xs with
  | case1 f outer a rest ih =>
      obtain rfl : xs = [] := hoperand
      simpa using ih h houter hf (.atom a)
  | case2 f outer rest ih =>
      obtain rfl : xs = [] := hoperand
      simpa using ih h ⟨qs, ps, houter, hf, rfl⟩ Frame.reads_empty rfl
  | case3 f outer operand c rest ih =>
      simpa using ih h houter (Frame.reads_advance hf hoperand c) rfl
  | case4 f g outer operand rest ih =>
      obtain ⟨qs, rs, houter, hg, rfl⟩ := houter
      have hparens := Derives.parens (Frame.derives_disjunction hf hoperand)
      simpa using ih h houter hg hparens
  | case5 f operand =>
      obtain rfl : qs = [] := houter
      rw [← Option.some.inj h]
      simpa using Frame.derives_disjunction hf hoperand
  | case6 => simp at h

/-- The reader of formulas is the grammar. -/
theorem read?_eq_some_iff (xs : List Symbol) (e : Formula) :
    read? xs = some e ↔ Derives .disjunction e xs := by
  constructor
  · intro h
    have houter : Frame.ReadsAll [] [] := rfl
    simpa using derives_of_run h houter Frame.reads_empty rfl
  · intro h
    obtain ⟨g, operand, hends, hrun⟩ := run_of_derives h {}
    have hread := hrun [] []
    rw [List.append_nil] at hread
    rw [read?, hread, run, hends rfl]

/-- A text has a formula if its tokens are those of symbols that the grammar derives it from. -/
theorem parse?_eq_some_iff (s : Settings) (text : String) (e : Formula) :
    parse? s text = some e ↔ ∃ xs, tokens (scan s text.toList) = xs.flatMap Symbol.tokens ∧
      (∀ x ∈ xs, x.WellFormed) ∧ Derives .disjunction e xs := by
  simp only [parse?, Option.bind_eq_some_iff, Symbol.readAll?_eq_some_iff, read?_eq_some_iff,
    and_assoc]

end Formula

end Sql

end KeyedQuery
