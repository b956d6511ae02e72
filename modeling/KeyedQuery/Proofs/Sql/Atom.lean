import KeyedQuery.Condition.Operator
import KeyedQuery.Proofs.Sql.Token

/-!
# Atomic predicates

The predicates that SQL builds its conditions from, each with its one spelling in tokens. A reader
takes the tokens of one atomic predicate off the front of a list; it takes exactly the tokens of the
predicate that it returns, and every well-formed predicate is returned from its tokens, whatever
follows. The conjunction that stands inside `BETWEEN` belongs to the atomic predicate.
-/

namespace KeyedQuery

namespace Sql

inductive Scalar where
  | null
  | number (numeral : String)
  | text (text : String)
deriving DecidableEq, Repr

def Scalar.token : Scalar → Token
  | null => .keyword .null
  | number n => .number n
  | text t => .literal t

def Scalar.ofToken? : Token → Option Scalar
  | .keyword .null => some null
  | .number n => some (number n)
  | .literal t => some (text t)
  | _ => none

/-- An atomic predicate. -/
inductive Atom where
  | compare (column : Identifier) (sign : Sign) (value : Scalar)
  | isNull (column : Identifier) (negated : Bool)
  | member (column : Identifier) (negated : Bool) (items : List Scalar)
  | like (column : Identifier) (negated : Bool) (pattern : String)
  | between (column : Identifier) (negated : Bool) (low high : Scalar)
  | constant (value : Bool)
  | search (columns : List Identifier) (keyword : String)
deriving DecidableEq, Repr

end Sql

open Sql

def Identifier.Part.token : Identifier.Part → Token
  | name text => .name text
  | star => .mark '*'

def Identifier.Part.ofToken? : Token → Option Identifier.Part
  | .name text => some (name text)
  | .mark '*' => some star
  | _ => none

namespace Identifier

def tokens (i : Identifier) : List Token := [Token.mark '.'].intercalate (i.map ([·.token]))

def tokensAll (columns : List Identifier) : List Token :=
  [Token.mark ','].intercalate (columns.map tokens)

def IsColumn (i : Identifier) : Prop := i ≠ [] ∧ .star ∉ i

instance (i : Identifier) : Decidable (IsColumn i) := inferInstanceAs (Decidable (_ ∧ _))

@[simp] theorem tokens_singleton (p : Part) : tokens [p] = [p.token] := rfl

theorem tokens_cons_cons (p q : Part) (i : Identifier) :
    tokens (p :: q :: i) = p.token :: .mark '.' :: tokens (q :: i) := by
  simp [tokens, List.intercalate]

@[simp] theorem tokensAll_singleton (i : Identifier) : tokensAll [i] = i.tokens := by
  simp [tokensAll]

theorem tokensAll_cons_cons (i j : Identifier) (columns : List Identifier) :
    tokensAll (i :: j :: columns) = i.tokens ++ .mark ',' :: tokensAll (j :: columns) := by
  simp [tokensAll, List.intercalate]

def read? : List Token → Option (Identifier × List Token)
  | t :: .mark '.' :: rest => do
      let p ← Part.ofToken? t
      let (i, after) ← read? rest
      return (p :: i, after)
  | t :: rest => (Part.ofToken? t).map fun p => ([p], rest)
  | [] => none

/-- Reads several identifiers, with commas between them, up to a closing parenthesis. -/
def readAll? : List Token → Option (List Identifier × List Token)
  | t :: .mark '.' :: rest => do
      let p ← Part.ofToken? t
      let (columns, after) ← readAll? rest
      return ((p :: columns.headD []) :: columns.tail, after)
  | t :: .mark ',' :: rest => do
      let p ← Part.ofToken? t
      let (columns, after) ← readAll? rest
      return ([p] :: columns, after)
  | t :: .mark ')' :: rest => (Part.ofToken? t).map fun p => ([[p]], rest)
  | _ => none

end Identifier

namespace Sql

namespace Scalar

def tokensAll (items : List Scalar) : List Token :=
  [Token.mark ','].intercalate (items.map ([·.token]))

@[simp] theorem tokensAll_singleton (x : Scalar) : tokensAll [x] = [x.token] := rfl

theorem tokensAll_cons_cons (x y : Scalar) (items : List Scalar) :
    tokensAll (x :: y :: items) = x.token :: .mark ',' :: tokensAll (y :: items) := by
  simp [tokensAll, List.intercalate]

def readAll? : List Token → Option (List Scalar × List Token)
  | t :: .mark ',' :: rest => do
      let x ← ofToken? t
      let (items, after) ← readAll? rest
      return (x :: items, after)
  | t :: .mark ')' :: rest => (ofToken? t).map fun x => ([x], rest)
  | _ => none

end Scalar

namespace Atom

def negation (negated : Bool) : List Token := if negated then [.keyword .not] else []

def tokens : Atom → List Token
  | compare column sign value => column.tokens ++ [.sign sign, value.token]
  | isNull column negated => column.tokens ++ .keyword .is :: negation negated ++ [.keyword .null]
  | member column negated items =>
      column.tokens ++ negation negated ++ [.keyword .within, .mark '('] ++
        Scalar.tokensAll items ++ [.mark ')']
  | like column negated pattern =>
      column.tokens ++ negation negated ++ [.keyword .like, .literal pattern]
  | between column negated low high =>
      column.tokens ++ negation negated ++
        [.keyword .between, low.token, .keyword .and, high.token]
  | constant value => [.number "1", .sign .equal, .number (if value then "1" else "0")]
  | search columns keyword =>
      [.keyword .matching, .mark '('] ++ Identifier.tokensAll columns ++
        [.mark ')', .keyword .against, .mark '(', .literal keyword, .mark ')']

/-- An atomic predicate that names what it is about. -/
def WellFormed : Atom → Prop
  | compare column _ _ => column.IsColumn
  | isNull column _ => column.IsColumn
  | member column _ items => column.IsColumn ∧ items ≠ []
  | like column _ _ => column.IsColumn
  | between column _ _ _ => column.IsColumn
  | constant _ => True
  | search columns _ => columns ≠ [] ∧ ∀ i ∈ columns, i ≠ []

/-- Reads what follows a column and, if there is one, a negation. -/
def readRelation? (column : Identifier) (negated : Bool) : List Token → Option (Atom × List Token)
  | .keyword .within :: .mark '(' :: rest =>
      (Scalar.readAll? rest).map (Prod.map (member column negated) id)
  | .keyword .like :: .literal pattern :: rest => some (like column negated pattern, rest)
  | .keyword .between :: t :: .keyword .and :: u :: rest => do
      let low ← Scalar.ofToken? t
      let high ← Scalar.ofToken? u
      return (between column negated low high, rest)
  | _ => none

def readPredicate? (column : Identifier) : List Token → Option (Atom × List Token)
  | .sign x :: t :: rest => (Scalar.ofToken? t).map fun value => (compare column x value, rest)
  | .keyword .is :: .keyword .null :: rest => some (isNull column false, rest)
  | .keyword .is :: .keyword .not :: .keyword .null :: rest => some (isNull column true, rest)
  | .keyword .not :: rest => readRelation? column true rest
  | rest => readRelation? column false rest

def readSearch? (ts : List Token) : Option (Atom × List Token) := do
  let (columns, after) ← Identifier.readAll? ts
  match after with
  | .keyword .against :: .mark '(' :: .literal keyword :: .mark ')' :: rest =>
      return (search columns keyword, rest)
  | _ => none

def read? : List Token → Option (Atom × List Token)
  | .keyword .matching :: .mark '(' :: rest => readSearch? rest
  | .number n :: .sign .equal :: .number m :: rest =>
      if n = "1" ∧ (m = "1" ∨ m = "0") then some (constant (m = "1"), rest) else none
  | ts => do
      let (column, after) ← Identifier.read? ts
      if column.IsColumn then readPredicate? column after else none

end Atom

end Sql

/-! ## Readers take the tokens of what they read -/

theorem Identifier.Part.ofToken?_eq_some_iff (t : Token) (p : Identifier.Part) :
    ofToken? t = some p ↔ t = p.token := by
  constructor
  · intro h
    unfold ofToken? at h
    split at h
    · rw [← Option.some.inj h]
      rfl
    · rw [← Option.some.inj h]
      rfl
    · simp at h
  · rintro rfl
    cases p <;> rfl

theorem Sql.Scalar.ofToken?_eq_some_iff (t : Token) (x : Scalar) :
    ofToken? t = some x ↔ t = x.token := by
  constructor
  · intro h
    unfold ofToken? at h
    split at h
    · rw [← Option.some.inj h]
      rfl
    · rw [← Option.some.inj h]
      rfl
    · rw [← Option.some.inj h]
      rfl
    · simp at h
  · rintro rfl
    cases x <;> rfl

namespace Identifier

theorem eq_of_read? {ts rest : List Token} {i : Identifier} (h : read? ts = some (i, rest)) :
    ts = i.tokens ++ rest ∧ i ≠ [] := by
  fun_induction read? ts generalizing i with
  | case1 t tail ih =>
      simp only [Option.bind_eq_bind, Option.bind_eq_some_iff, Option.pure_def, Option.some.injEq,
        Prod.mk.injEq, Prod.exists, Part.ofToken?_eq_some_iff] at h
      obtain ⟨p, rfl, j, after, hj, rfl, rfl⟩ := h
      obtain ⟨rfl, hne⟩ := ih hj
      obtain ⟨q, j, rfl⟩ := List.exists_cons_of_ne_nil hne
      exact ⟨by rw [tokens_cons_cons]; rfl, List.cons_ne_nil _ _⟩
  | case2 t tail _ =>
      simp only [Option.map_eq_some_iff, Prod.mk.injEq, Part.ofToken?_eq_some_iff] at h
      obtain ⟨p, rfl, rfl, rfl⟩ := h
      exact ⟨rfl, List.cons_ne_nil _ _⟩
  | case3 => simp at h

theorem read?_cons_eq_none {t : Token} (h : Part.ofToken? t = none) (ts : List Token) :
    read? (t :: ts) = none := by
  unfold read?
  split
  · next heq =>
      obtain ⟨rfl, -⟩ := List.cons.inj heq
      simp [h]
  · next heq =>
      obtain ⟨rfl, -⟩ := List.cons.inj heq
      simp [h]
  · rfl

theorem read?_tokens {i : Identifier} (hi : i ≠ []) {rest : List Token}
    (hrest : rest.head? ≠ some (.mark '.')) : read? (i.tokens ++ rest) = some (i, rest) := by
  induction i with
  | nil => exact absurd rfl hi
  | cons p i ih =>
      have hp := (Part.ofToken?_eq_some_iff p.token p).2 rfl
      cases i with
      | nil =>
          rw [tokens_singleton, List.singleton_append, read?, hp]
          · rfl
          · rintro tail rfl
            exact hrest rfl
      | cons q i =>
          rw [tokens_cons_cons, List.cons_append, List.cons_append, read?, hp,
            ih (List.cons_ne_nil _ _)]
          rfl

theorem tokensAll_cons_head (p : Part) {i : Identifier} (hi : i ≠ []) (columns : List Identifier) :
    tokensAll ((p :: i) :: columns) = p.token :: .mark '.' :: tokensAll (i :: columns) := by
  obtain ⟨q, i, rfl⟩ := List.exists_cons_of_ne_nil hi
  cases columns with
  | nil => rw [tokensAll_singleton, tokens_cons_cons, tokensAll_singleton]
  | cons j columns =>
      rw [tokensAll_cons_cons, tokens_cons_cons, tokensAll_cons_cons]
      rfl

theorem eq_of_readAll? {ts rest : List Token} {columns : List Identifier}
    (h : readAll? ts = some (columns, rest)) :
    ts = tokensAll columns ++ .mark ')' :: rest ∧ columns ≠ [] ∧ ∀ i ∈ columns, i ≠ [] := by
  fun_induction readAll? ts generalizing columns with
  | case1 t tail ih =>
      simp only [Option.bind_eq_bind, Option.bind_eq_some_iff, Option.pure_def, Option.some.injEq,
        Prod.mk.injEq, Prod.exists, Part.ofToken?_eq_some_iff] at h
      obtain ⟨p, rfl, columns, after, hcolumns, rfl, rfl⟩ := h
      obtain ⟨rfl, hne, hall⟩ := ih hcolumns
      obtain ⟨i, columns, rfl⟩ := List.exists_cons_of_ne_nil hne
      obtain ⟨hi, hcolumns⟩ := List.forall_mem_cons.1 hall
      rw [List.headD_cons, List.tail_cons, tokensAll_cons_head p hi]
      exact ⟨rfl, List.cons_ne_nil _ _, List.forall_mem_cons.2 ⟨List.cons_ne_nil _ _, hcolumns⟩⟩
  | case2 t tail ih =>
      simp only [Option.bind_eq_bind, Option.bind_eq_some_iff, Option.pure_def, Option.some.injEq,
        Prod.mk.injEq, Prod.exists, Part.ofToken?_eq_some_iff] at h
      obtain ⟨p, rfl, columns, after, hcolumns, rfl, rfl⟩ := h
      obtain ⟨rfl, hne, hall⟩ := ih hcolumns
      obtain ⟨i, columns, rfl⟩ := List.exists_cons_of_ne_nil hne
      rw [tokensAll_cons_cons]
      exact ⟨rfl, List.cons_ne_nil _ _, List.forall_mem_cons.2 ⟨List.cons_ne_nil _ _, hall⟩⟩
  | case3 t tail =>
      simp only [Option.map_eq_some_iff, Prod.mk.injEq, Part.ofToken?_eq_some_iff] at h
      obtain ⟨p, rfl, rfl, rfl⟩ := h
      exact ⟨rfl, by simp⟩
  | case4 => simp at h

theorem readAll?_tokensAll {columns : List Identifier} (hne : columns ≠ [])
    (hall : ∀ i ∈ columns, i ≠ []) (rest : List Token) :
    readAll? (tokensAll columns ++ .mark ')' :: rest) = some (columns, rest) := by
  induction columns with
  | nil => exact absurd rfl hne
  | cons i columns ih =>
      obtain ⟨hi, hcolumns⟩ := List.forall_mem_cons.1 hall
      clear hall hne
      induction i with
      | nil => exact absurd rfl hi
      | cons p i ihi =>
          have hp := (Part.ofToken?_eq_some_iff p.token p).2 rfl
          rcases eq_or_ne i [] with rfl | hi
          · cases columns with
            | nil =>
                rw [tokensAll_singleton, tokens_singleton, List.singleton_append, readAll?, hp]
                rfl
            | cons j columns =>
                rw [tokensAll_cons_cons, tokens_singleton, List.singleton_append, List.cons_append,
                  List.cons_append, readAll?, hp, ih (List.cons_ne_nil _ _) hcolumns]
                rfl
          · rw [tokensAll_cons_head p hi, List.cons_append, List.cons_append, readAll?, hp, ihi hi]
            rfl

end Identifier

namespace Sql

namespace Scalar

theorem eq_of_readAll? {ts rest : List Token} {items : List Scalar}
    (h : readAll? ts = some (items, rest)) :
    ts = tokensAll items ++ .mark ')' :: rest ∧ items ≠ [] := by
  fun_induction readAll? ts generalizing items with
  | case1 t tail ih =>
      simp only [Option.bind_eq_bind, Option.bind_eq_some_iff, Option.pure_def, Option.some.injEq,
        Prod.mk.injEq, Prod.exists, ofToken?_eq_some_iff] at h
      obtain ⟨x, rfl, items, after, hitems, rfl, rfl⟩ := h
      obtain ⟨rfl, hne⟩ := ih hitems
      obtain ⟨y, items, rfl⟩ := List.exists_cons_of_ne_nil hne
      rw [tokensAll_cons_cons]
      exact ⟨rfl, List.cons_ne_nil _ _⟩
  | case2 t tail =>
      simp only [Option.map_eq_some_iff, Prod.mk.injEq, ofToken?_eq_some_iff] at h
      obtain ⟨x, rfl, rfl, rfl⟩ := h
      exact ⟨rfl, List.cons_ne_nil _ _⟩
  | case3 => simp at h

theorem readAll?_tokensAll {items : List Scalar} (hne : items ≠ []) (rest : List Token) :
    readAll? (tokensAll items ++ .mark ')' :: rest) = some (items, rest) := by
  induction items with
  | nil => exact absurd rfl hne
  | cons x items ih =>
      have hx := (ofToken?_eq_some_iff x.token x).2 rfl
      cases items with
      | nil =>
          rw [tokensAll_singleton, List.singleton_append, readAll?, hx]
          rfl
      | cons y items =>
          rw [tokensAll_cons_cons, List.cons_append, List.cons_append, readAll?, hx,
            ih (List.cons_ne_nil _ _)]
          rfl

end Scalar

namespace Atom

theorem eq_of_readRelation? {column : Identifier} (hcolumn : column.IsColumn) {negated : Bool}
    {ts rest : List Token} {a : Atom} (h : readRelation? column negated ts = some (a, rest)) :
    column.tokens ++ negation negated ++ ts = a.tokens ++ rest ∧ a.WellFormed := by
  unfold readRelation? at h
  split at h
  · simp only [Option.map_eq_some_iff, Prod.map_apply, id_eq, Prod.mk.injEq, Prod.exists] at h
    obtain ⟨items, after, hitems, rfl, rfl⟩ := h
    obtain ⟨rfl, hne⟩ := Scalar.eq_of_readAll? hitems
    exact ⟨by simp [tokens], hcolumn, hne⟩
  · obtain ⟨rfl, rfl⟩ := Prod.mk.inj (Option.some.inj h)
    exact ⟨by simp [tokens], hcolumn⟩
  · simp only [Option.bind_eq_bind, Option.bind_eq_some_iff, Option.pure_def, Option.some.injEq,
      Prod.mk.injEq, Scalar.ofToken?_eq_some_iff] at h
    obtain ⟨low, rfl, high, rfl, rfl, rfl⟩ := h
    exact ⟨by simp [tokens], hcolumn⟩
  · simp at h

theorem eq_of_readPredicate? {column : Identifier} (hcolumn : column.IsColumn)
    {ts rest : List Token} {a : Atom} (h : readPredicate? column ts = some (a, rest)) :
    column.tokens ++ ts = a.tokens ++ rest ∧ a.WellFormed := by
  unfold readPredicate? at h
  split at h
  · simp only [Option.map_eq_some_iff, Prod.mk.injEq, Scalar.ofToken?_eq_some_iff] at h
    obtain ⟨value, rfl, rfl, rfl⟩ := h
    exact ⟨by simp [tokens], hcolumn⟩
  · obtain ⟨rfl, rfl⟩ := Prod.mk.inj (Option.some.inj h)
    exact ⟨by simp [tokens, negation], hcolumn⟩
  · obtain ⟨rfl, rfl⟩ := Prod.mk.inj (Option.some.inj h)
    exact ⟨by simp [tokens, negation], hcolumn⟩
  · simpa [negation] using eq_of_readRelation? hcolumn h
  · simpa [negation] using eq_of_readRelation? hcolumn h

/-- What is read is a well-formed predicate, and its tokens are what is taken. -/
theorem eq_of_read? {ts rest : List Token} {a : Atom} (h : read? ts = some (a, rest)) :
    ts = a.tokens ++ rest ∧ a.WellFormed := by
  unfold read? at h
  split at h
  · simp only [readSearch?, Option.bind_eq_bind, Option.bind_eq_some_iff, Prod.exists] at h
    obtain ⟨columns, after, hcolumns, h⟩ := h
    obtain ⟨rfl, hne, hall⟩ := Identifier.eq_of_readAll? hcolumns
    split at h
    · obtain ⟨rfl, rfl⟩ := Prod.mk.inj (Option.some.inj h)
      exact ⟨by simp [tokens], hne, hall⟩
    · simp at h
  · split at h
    · next hnumbers =>
        obtain ⟨rfl, rfl⟩ := Prod.mk.inj (Option.some.inj h)
        obtain ⟨rfl, rfl | rfl⟩ := hnumbers
        · exact ⟨rfl, trivial⟩
        · exact ⟨rfl, trivial⟩
    · simp at h
  · simp only [Option.bind_eq_bind, Option.bind_eq_some_iff, Prod.exists] at h
    obtain ⟨column, after, hcolumn, h⟩ := h
    obtain ⟨rfl, -⟩ := Identifier.eq_of_read? hcolumn
    split at h
    · next hwf => exact eq_of_readPredicate? hwf h
    · simp at h

theorem read?_append {column : Identifier} (hcolumn : column.IsColumn) {rest : List Token}
    (hrest : rest.head? ≠ some (.mark '.')) :
    read? (column.tokens ++ rest) = readPredicate? column rest := by
  have hread := Identifier.read?_tokens hcolumn.1 hrest
  have hname : ∃ text tail, column.tokens = .name text :: tail := by
    obtain ⟨hne, hstar⟩ := hcolumn
    obtain ⟨p, i, rfl⟩ := List.exists_cons_of_ne_nil hne
    cases p with
    | star => exact absurd List.mem_cons_self hstar
    | name text =>
        cases i with
        | nil => exact ⟨text, [], rfl⟩
        | cons q i => exact ⟨text, _, Identifier.tokens_cons_cons _ _ _⟩
  obtain ⟨text, tail, htokens⟩ := hname
  have hcase : read? (column.tokens ++ rest) = (do
      let (column, after) ← Identifier.read? (column.tokens ++ rest)
      if column.IsColumn then readPredicate? column after else none) := by
    rw [htokens]
    rfl
  rw [hcase, hread]
  exact if_pos hcolumn

/-- A well-formed predicate is read back from its tokens, whatever follows. -/
theorem read?_tokens {a : Atom} (h : a.WellFormed) (rest : List Token) :
    read? (a.tokens ++ rest) = some (a, rest) := by
  have hscalar : ∀ x : Scalar, Scalar.ofToken? x.token = some x :=
    fun x => (Scalar.ofToken?_eq_some_iff x.token x).2 rfl
  cases a with
  | compare column sign value =>
      rw [tokens, List.append_assoc, read?_append h (by simp)]
      simp [readPredicate?, hscalar]
  | isNull column negated =>
      rw [tokens, List.append_assoc, List.append_assoc, read?_append h (by simp)]
      cases negated <;> rfl
  | member column negated items =>
      simp only [tokens, List.append_assoc]
      rw [read?_append h.1 (by cases negated <;> simp [negation])]
      have hitems := Scalar.readAll?_tokensAll h.2 rest
      cases negated <;> simp [negation, readPredicate?, readRelation?, hitems]
  | like column negated pattern =>
      simp only [tokens, List.append_assoc]
      rw [read?_append h (by cases negated <;> simp [negation])]
      cases negated <;> rfl
  | between column negated low high =>
      simp only [tokens, List.append_assoc]
      rw [read?_append h (by cases negated <;> simp [negation])]
      cases negated <;> simp [negation, readPredicate?, readRelation?, hscalar]
  | constant value => cases value <;> rfl
  | search columns keyword =>
      have hcolumns := Identifier.readAll?_tokensAll h.1 h.2
        (.keyword .against :: .mark '(' :: .literal keyword :: .mark ')' :: rest)
      simp [tokens, read?, readSearch?, hcolumns]

theorem tokens_ne_nil (a : Atom) : a.tokens ≠ [] := by
  cases a <;> simp [tokens]

end Atom

end Sql

end KeyedQuery
