import KeyedQuery.Condition.Leaf
import KeyedQuery.Proofs.Key
import KeyedQuery.Proofs.Sql.Composition
import KeyedQuery.Proofs.Sql.Meaning

/-!
# Meaning of conditions on one column

A key and a value stand for alternatives, of which one has to hold. There are several of them only
where a search has several terms. The fragment of the key and the value has this meaning, and it is
a factor, so that it can stand beside any conjunctor.
-/

namespace KeyedQuery

open Sql

def Comparison.toSign : Comparison → Sign
  | greater => .greater
  | greaterOrEqual => .greaterOrEqual
  | less => .less
  | lessOrEqual => .lessOrEqual

/-! ## Patterns -/

/-- A text in the shape of a function call is a name with arguments in parentheses. No argument
holds a closing parenthesis. -/
theorem Literal.of_isFunctionCall {text : String} (h : isFunctionCall text = true) :
    ∃ name arguments, text.toList = name ++ '(' :: arguments ++ [')'] ∧
      (∀ c ∈ name, isFunctionChar c = true) ∧ ')' ∉ arguments := by
  unfold isFunctionCall isArguments at h
  split at h
  · next rest hrest =>
      have hend := eq_of_beq h
      refine ⟨text.toList.takeWhile isFunctionChar, rest.takeWhile (· ≠ ')'), ?_,
        fun c hc => List.mem_takeWhile_imp hc, fun hc => ?_⟩
      · rw [List.append_assoc, List.cons_append, ← hend, List.takeWhile_append_dropWhile, ← hrest,
          List.takeWhile_append_dropWhile]
      · simpa using List.mem_takeWhile_imp hc
  · simp at h

theorem Pattern.ofTermChars_cases (cs : List Char) :
    ofTermChars cs = [] ∨ (∃ c ∈ ['%', ']'], ∃ stem, ofTermChars cs = stem ++ [c]) ∨
      (∃ c ∈ ['%', '['], ∃ stem, ofTermChars cs = c :: stem) ∨
      ∃ stem, ofTermChars cs = '_' :: ']' :: stem := by
  unfold ofTermChars
  split
  · next stem _ => exact .inr (.inl ⟨'%', by simp, stem, rfl⟩)
  split
  · next stem _ => exact .inr (.inr (.inl ⟨'%', by simp, stem, rfl⟩))
  split
  · next h =>
      rcases h with rfl | h
      · exact .inl rfl
      simp only [isPattern, Bool.or_eq_true, List.isPrefixOf_iff_prefix,
        List.isSuffixOf_iff_suffix] at h
      rcases h with ((⟨stem, rfl⟩ | ⟨stem, rfl⟩) | ⟨stem, rfl⟩) | ⟨stem, rfl⟩
      · exact .inr (.inr (.inl ⟨'%', by simp, stem, rfl⟩))
      · exact .inr (.inr (.inl ⟨'[', by simp, stem, rfl⟩))
      · exact .inr (.inr (.inr ⟨stem, rfl⟩))
      · exact .inr (.inl ⟨']', by simp, stem, rfl⟩)
  · exact .inr (.inl ⟨'%', by simp, '%' :: cs, rfl⟩)

/-- No pattern has the shape of a function call, so none is ever let through as it is. -/
theorem Pattern.isFunctionCall_ofTerm (term : String) :
    Literal.isFunctionCall (ofTerm term) = false := by
  by_contra hcall
  obtain ⟨name, arguments, htext, hname, -⟩ := Literal.of_isFunctionCall (by simpa using hcall)
  rw [ofTerm, String.toList_ofList] at htext
  rcases ofTermChars_cases term.toList with h | ⟨c, hc, stem, h⟩ | ⟨c, hc, stem, h⟩ | ⟨stem, h⟩
  · simp [h] at htext
  · have hlast : c = ')' := List.singleton_inj.1 (List.append_inj' (h.symm.trans htext) rfl).2
    rw [hlast] at hc
    revert hc
    decide
  · have hfirst : c = '(' ∨ Literal.isFunctionChar c = true := by
      rw [h] at htext
      cases name with
      | nil => exact .inl (List.cons.inj htext).1
      | cons d name => exact .inr ((List.cons.inj htext).1 ▸ hname d List.mem_cons_self)
    rcases List.mem_pair.1 hc with rfl | rfl
    · revert hfirst
      decide
    · revert hfirst
      decide
  · rw [h] at htext
    match name, hname with
    | [], _ => simp at htext
    | [_], _ => simp at htext
    | _ :: d :: _, hname =>
        obtain rfl : ']' = d := by
          simp only [List.cons_append, List.cons.injEq] at htext
          exact htext.2.1
        exact absurd (hname ']' (by simp)) (by decide)

namespace LeafKey

/-! ## What holds of every condition -/

/-- The text that the key of a condition lets through as it is, if it does. -/
def verbatim? (k : LeafKey) (v : Value) : Option String :=
  match k.operator with
  | some (.like _) => none
  | some (.between _) => none
  | _ => Literal.verbatim? k.raw v

theorem verbatim?_of_raw_eq_false {k : LeafKey} (h : k.raw = false) (v : Value) :
    k.verbatim? v = none := by
  unfold verbatim?
  split
  · rfl
  · rfl
  · rw [h, Literal.verbatim?_false]

variable {s : Settings} {k : LeafKey} {v : Value} {column f : Fragment}

section

variable {P : Fragment → Prop} (hP : Fragment.Compositional P)

include hP

theorem holds_membership (hcolumn : P column) {negated : Bool} {items : List Value}
    (h : membership column negated items = .ok f) : P f := by
  unfold membership at h
  split at h
  · rw [← Except.ok.inj h]
    exact hP.flat (by cases negated <;> decide)
  · simp only [Result.do_eq_ok_iff, Result.pure_eq_ok_iff] at h
    obtain ⟨values, hvalues, rfl⟩ := h
    rw [List.append_assoc]
    exact hP.enclose hcolumn (by cases negated <;> decide) (Literal.holds_ofScalars hP hvalues)

theorem holds_inferred (hcolumn : P column) {negated : Bool}
    (hcall : ∀ t, Literal.verbatim? k.raw v = some t → P [.call t])
    (h : inferred column k negated v = .ok f) : P f := by
  unfold inferred at h
  split at h
  · rw [← Except.ok.inj h]
    exact hP.append hcolumn (by cases negated <;> decide) hP.nil
  · split at h
    · simp at h
    · exact holds_membership hP hcolumn h
  · obtain ⟨p, hp, rfl⟩ := Result.map_eq_ok_iff.1 h
    exact hP.append hcolumn (by cases negated <;> decide) (Literal.holds_ofValue hP hp hcall)

theorem holds_range (hcolumn : P column) {negated : Bool} {low high : Value}
    (h : range column negated low high = .ok f) : P f := by
  simp only [range, Result.do_eq_ok_iff, Result.pure_eq_ok_iff] at h
  obtain ⟨p, hp, q, hq, rfl⟩ := h
  have hbounds : P ([p] ++ [.code " AND ", q]) :=
    hP.append (Literal.holds_ofScalar hP hp) (by decide) (Literal.holds_ofScalar hP hq)
  exact hP.parens (hP.append hcolumn (by cases negated <;> decide) hbounds)

theorem holds_anyOf {fragments : List Fragment} (h : ∀ g ∈ fragments, P g) :
    P (anyOf fragments) := by
  unfold anyOf
  split
  · exact h _ List.mem_cons_self
  · exact hP.parens (hP.join (by decide) h)

theorem holds_matchOf (hcolumn : P column) (raw negated : Bool) (term : String) :
    P (matchOf column raw negated term) := by
  unfold matchOf
  rw [Literal.ofText_of_not_isFunctionCall (Pattern.isFunctionCall_ofTerm term)]
  exact hP.append hcolumn (by cases negated <;> decide) (hP.literal _)

theorem holds_comparand? {p : Piece} (h : comparand? k.raw v = some (.ok p))
    (hcall : ∀ t, Literal.verbatim? k.raw v = some t → P [.call t]) : P [p] := by
  unfold comparand? at h
  split at h
  · rw [← Except.ok.inj (Option.some.inj h)]
    exact Literal.holds_ofText hP hcall
  · obtain ⟨number, hnumber, hp⟩ := Option.map_eq_some_iff.1 h
    obtain ⟨text, rfl, rfl⟩ := Result.map_eq_ok_iff.1 hp
    exact hP.flat (isFlat_of_isNumeral (Value.isNumeral_of_numericSql? hnumber))

/-- A condition has the property if its column has it, and the text that its key lets through. -/
theorem holds_toSql (hcolumn : P (s.column k.column))
    (hcall : ∀ t, k.verbatim? v = some t → P [.call t]) (h : k.toSql s v = .ok f) : P f := by
  unfold toSql at h
  simp only at h
  split at h
  · next hop => exact holds_inferred hP hcolumn (fun t ht => hcall t (by rwa [verbatim?, hop])) h
  · next hop => exact holds_inferred hP hcolumn (fun t ht => hcall t (by rwa [verbatim?, hop])) h
  · split at h
    · split at h
      · exact holds_range hP hcolumn h
      · simp at h
    · simp at h
  · split at h
    · simp at h
    · obtain ⟨ts, -, rfl⟩ := Result.map_eq_ok_iff.1 h
      exact holds_anyOf hP
        (List.forall_mem_map.2 fun term _ => holds_matchOf hP hcolumn _ _ term)
  · next c hop =>
      split at h
      · next value hvalue =>
          obtain ⟨p, rfl, rfl⟩ := Result.map_eq_ok_iff.1 h
          have hp := holds_comparand? hP hvalue fun t ht => hcall t (by rwa [verbatim?, hop])
          exact hP.append hcolumn (by cases c <;> decide) hp
      · simp at h

end

theorem isFunctionCall_of_verbatim? {t : String} (h : k.verbatim? v = some t) :
    Literal.isFunctionCall t = true := by
  unfold verbatim? at h
  split at h
  · simp at h
  · simp at h
  · exact Literal.isFunctionCall_of_verbatim? h

theorem sound_toSql (hcolumn : Fragment.Sound s (s.column k.column))
    (hcall : ∀ t, k.verbatim? v = some t → s.Plain t.toList) (h : k.toSql s v = .ok f) :
    Fragment.Sound s f := by
  refine holds_toSql (Fragment.compositional_sound s) hcolumn (fun t ht => .singleton ?_) h
  exact ⟨Literal.ne_empty_of_isFunctionCall (isFunctionCall_of_verbatim? ht), hcall t ht⟩

/-! ## Meaning -/

def termText : Value → String
  | .text t => t
  | .int n => Numeral.ofInt n.toInt
  | .float x => x.text
  | _ => ""

/-- Being one of the items, or none of them. -/
def memberOf (column : Identifier) (negated : Bool) (items : List Value) : Atom :=
  if items.isEmpty then .constant negated else .member column negated (items.map Scalar.ofValue)

/-- What a key asks for without an operator, or its negation. -/
def inferredOf (column : Identifier) (negated : Bool) : Value → Atom
  | .null => .isNull column negated
  | .list items => memberOf column negated items
  | v => .compare column (if negated then .differs else .equal) (Scalar.ofValue v)

/-- The atomic predicates that a key and a value stand for; one of them has to hold. Only a search
for a list of terms has several. -/
def alternatives (s : Settings) (k : LeafKey) (v : Value) : List Atom :=
  let column := Identifier.ofColumn k.column s.tablePrefix
  match k.operator, v with
  | none, v => [inferredOf column false v]
  | some .differs, v => [inferredOf column true v]
  | some (.comparison c), v => [.compare column c.toSign (Scalar.ofValue v)]
  | some (.between negated), .list [low, high] =>
      [.between column negated (Scalar.ofValue low) (Scalar.ofValue high)]
  | some (.between _), _ => []
  | some (.like negated), v =>
      (searched v).map fun item => .like column negated (Pattern.ofTerm (termText item))

def meaning (s : Settings) (k : LeafKey) (v : Value) : Meaning :=
  fun σ => (k.alternatives s v).any σ

section

variable {i : Identifier} (hi : i.IsColumn)

include hi

theorem means_nullTest (negated : Bool) :
    Fragment.Means .factor (nullTest i.toSql negated) fun σ => σ (.isNull i negated) := by
  refine Fragment.means_atom hi ?_
  rw [nullTest, Identifier.tokens_toSql_append hi.1, Atom.tokens, List.append_assoc]
  cases negated <;> rfl

theorem means_equality {p : Piece} {x : Scalar} (hp : Fragment.tokens [p] = [x.token])
    (negated : Bool) : Fragment.Means .factor (equality i.toSql negated p)
      fun σ => σ (.compare i (if negated then .differs else .equal) x) := by
  refine Fragment.means_atom hi ?_
  rw [equality, Identifier.tokens_toSql_append hi.1, Atom.tokens]
  cases negated with
  | false =>
      rw [Fragment.tokens_cons_code (by decide), hp]
      rfl
  | true =>
      rw [Fragment.tokens_cons_code (by decide), hp]
      rfl

theorem means_membership {negated : Bool} {items : List Value}
    (h : membership i.toSql negated items = .ok f) :
    Fragment.Means .factor f fun σ => σ (memberOf i negated items) := by
  unfold membership at h
  unfold memberOf
  split at h
  · next hempty =>
      rw [← Except.ok.inj h, if_pos hempty]
      exact Fragment.means_atom trivial (by cases negated <;> decide)
  · next hempty =>
      simp only [Result.do_eq_ok_iff, Result.pure_eq_ok_iff] at h
      obtain ⟨values, hvalues, rfl⟩ := h
      have hne : items.map Scalar.ofValue ≠ [] := by simpa using hempty
      have htokens := (Literal.denotes_ofScalars hvalues).2
      rw [if_neg hempty]
      refine Fragment.means_atom ⟨hi, hne⟩ ?_
      rw [List.append_assoc, List.cons_append, Identifier.tokens_toSql_append hi.1, Atom.tokens]
      have hclose : ∀ code, endsInGap code = true →
          Fragment.tokens (.code code :: (values ++ [.code ")"])) =
            Fragment.tokens [.code code] ++
              Scalar.tokensAll (items.map Scalar.ofValue) ++ [.mark ')'] := by
        intro code hcode
        rw [Fragment.tokens_cons_code hcode, Fragment.tokens_append_code (by decide), htokens,
          ← List.append_assoc]
        rfl
      cases negated with
      | false =>
          rw [if_neg (by simp), hclose _ (by decide)]
          simp only [Atom.negation, List.append_assoc]
          rfl
      | true =>
          rw [if_pos rfl, hclose _ (by decide)]
          simp only [Atom.negation, List.append_assoc]
          rfl

theorem means_inferred (hraw : k.raw = false) {negated : Bool}
    (h : inferred i.toSql k negated v = .ok f) :
    Fragment.Means .factor f fun σ => σ (inferredOf i negated v) := by
  unfold inferred at h
  rw [hraw] at h
  split at h
  · rw [← Except.ok.inj h]
    exact means_nullTest hi negated
  · split at h
    · simp at h
    · exact means_membership hi h
  · next hnull hlist =>
      obtain ⟨p, hp, rfl⟩ := Result.map_eq_ok_iff.1 h
      have hof : inferredOf i negated v =
          .compare i (if negated then .differs else .equal) (Scalar.ofValue v) := by
        cases v with
        | null => exact absurd rfl hnull
        | list items => exact absurd rfl (hlist items)
        | bool b => rfl
        | int n => rfl
        | float x => rfl
        | text t => rfl
      rw [hof]
      exact means_equality hi (Literal.denotes_ofScalar hp).tokens negated

theorem means_range {negated : Bool} {low high : Value}
    (h : range i.toSql negated low high = .ok f) : Fragment.Means .factor f
      fun σ => σ (.between i negated (Scalar.ofValue low) (Scalar.ofValue high)) := by
  simp only [range, Result.do_eq_ok_iff, Result.pure_eq_ok_iff] at h
  obtain ⟨p, hp, q, hq, rfl⟩ := h
  have hlow := (Literal.denotes_ofScalar hp).tokens
  have hhigh := (Literal.denotes_ofScalar hq).tokens
  have htokens : ∀ code, endsInGap code = true →
      Fragment.tokens [.code code, p, .code " AND ", q] = Fragment.tokens [.code code] ++
        [(Scalar.ofValue low).token, .keyword .and, (Scalar.ofValue high).token] := by
    intro code hcode
    have hand : separates " AND " = true := by decide
    have hbounds := Fragment.tokens_append_code hand [p] [q]
    rw [Fragment.tokens_cons_code hcode]
    rw [hlow, hhigh] at hbounds
    exact congrArg (_ ++ ·) hbounds
  refine (Fragment.Means.disjunction (c := .and) (.of_factor ?_ .and)).parens
  refine Fragment.means_atom hi ?_
  rw [Identifier.tokens_toSql_append hi.1, Atom.tokens]
  cases negated with
  | false =>
      rw [if_neg (by simp), htokens _ (by decide)]
      simp only [Atom.negation, List.append_assoc]
      rfl
  | true =>
      rw [if_pos rfl, htokens _ (by decide)]
      simp only [Atom.negation, List.append_assoc]
      rfl

theorem means_matchOf (raw negated : Bool) (term : String) :
    Fragment.Means .factor (matchOf i.toSql raw negated term)
      fun σ => σ (.like i negated (Pattern.ofTerm term)) := by
  refine Fragment.means_atom hi ?_
  unfold matchOf
  rw [Literal.ofText_of_not_isFunctionCall (Pattern.isFunctionCall_ofTerm term),
    Identifier.tokens_toSql_append hi.1, Atom.tokens, List.append_assoc]
  cases negated with
  | false =>
      rw [Fragment.tokens_cons_code (by decide)]
      rfl
  | true =>
      rw [Fragment.tokens_cons_code (by decide)]
      rfl

theorem means_compared {p : Piece} {x : Scalar} (hp : Fragment.tokens [p] = [x.token])
    (c : Comparison) : Fragment.Means .factor (compared i.toSql c p)
      fun σ => σ (.compare i c.toSign x) := by
  refine Fragment.means_atom hi ?_
  rw [compared, Identifier.tokens_toSql_append hi.1, Atom.tokens,
    Fragment.tokens_cons_code (by cases c <;> decide), hp]
  cases c <;> rfl

end

theorem means_anyOf {parts : List Fragment} {meanings : List Meaning}
    (h : List.Forall₂ (Fragment.Means .factor) parts meanings) (hne : parts ≠ []) :
    Fragment.Means .factor (anyOf parts) (Conjunctor.or.combine meanings) := by
  have hjoin := (Fragment.Means.join .or h hne).disjunction
  cases h with
  | nil => exact absurd rfl hne
  | cons hf h =>
      cases h with
      | nil => rwa [Conjunctor.combine_singleton]
      | cons hg h => exact hjoin.parens

theorem eq_termText {item : Value} {e : Error} {term : String}
    (h : (term? item).getD (.error e) = .ok term) : term = termText item := by
  cases item with
  | text t => exact (Except.ok.inj h).symm
  | int n => exact (Except.ok.inj h).symm
  | float x => exact ((Value.floatSql_eq_ok_iff x term).1 h).2
  | null => simp [term?, Value.numericSql?] at h
  | bool b => simp [term?, Value.numericSql?] at h
  | list items => simp [term?, Value.numericSql?] at h

theorem terms_eq {ts : List String} (h : terms k v = .ok ts) :
    ts = (searched v).map termText := by
  rw [terms, Result.mapM_eq_ok_iff] at h
  generalize searched v = items at h
  induction h with
  | nil => rfl
  | cons hterm _ ih => rw [List.map_cons, ← ih, eq_termText hterm]

theorem denotes_comparand? {p : Piece} (h : comparand? false v = some (.ok p)) :
    p.Denotes (Scalar.ofValue v) := by
  cases v with
  | text t =>
      rw [← Except.ok.inj (Option.some.inj h)]
      exact Piece.denotes_text t
  | int n => exact Literal.denotes_ofScalar (v := .int n) (Option.some.inj h)
  | float x => exact Literal.denotes_ofScalar (v := .float x) (Option.some.inj h)
  | null => simp [comparand?, Value.numericSql?] at h
  | bool b => simp [comparand?, Value.numericSql?] at h
  | list items => simp [comparand?, Value.numericSql?] at h

theorem means_of_alternatives {a : Atom} (halternatives : k.alternatives s v = [a])
    (h : Fragment.Means .factor f fun σ => σ a) : Fragment.Means .factor f (k.meaning s v) := by
  have hmeaning : k.meaning s v = fun σ => σ a := by
    funext σ
    simp [meaning, halternatives]
  rwa [hmeaning]

theorem means_terms {negated : Bool} (hop : k.operator = some (.like negated))
    (hi : (Identifier.ofColumn k.column s.tablePrefix).IsColumn) (hne : searched v ≠ [])
    {ts : List String} (h : terms k v = .ok ts) :
    Fragment.Means .factor (anyOf (ts.map (matchOf (s.column k.column) k.raw negated)))
      (k.meaning s v) := by
  have hterms := terms_eq h
  have hmeaning : k.meaning s v = Conjunctor.or.combine (ts.map fun term σ =>
      σ (.like (Identifier.ofColumn k.column s.tablePrefix) negated (Pattern.ofTerm term))) := by
    funext σ
    simp [meaning, alternatives, hop, Conjunctor.combine, hterms, List.any_map,
      Function.comp_def]
  rw [hmeaning]
  refine means_anyOf ?_ (by simpa [hterms] using hne)
  rw [List.forall₂_map_left_iff, List.forall₂_map_right_iff, List.forall₂_same]
  exact fun term _ => means_matchOf hi k.raw negated term

theorem isColumn_of_parse {key : String} (hk : LeafKey.parse key = .ok k) (tablePrefix : String) :
    (Identifier.ofColumn k.column tablePrefix).IsColumn := by
  have hstar : '*' ∉ k.column.toList := fun hmem =>
    (Key.isMark_of_isColumnChar ((Key.parse_eq_ok hk).2 _ hmem)).2 rfl
  exact Identifier.isColumn_ofColumn hstar tablePrefix

/-- The fragment of a key without the marker and of a value is a factor with their meaning. -/
theorem means_toSql (hi : (Identifier.ofColumn k.column s.tablePrefix).IsColumn)
    (hraw : k.raw = false) (h : k.toSql s v = .ok f) :
    Fragment.Means .factor f (k.meaning s v) := by
  unfold toSql at h
  simp only at h
  split at h
  · next hop =>
      exact means_of_alternatives (by simp only [alternatives, hop]) (means_inferred hi hraw h)
  · next hop =>
      exact means_of_alternatives (by simp only [alternatives, hop]) (means_inferred hi hraw h)
  · next hop =>
      split at h
      · split at h
        · exact means_of_alternatives (by simp only [alternatives, hop]) (means_range hi h)
        · simp at h
      · simp at h
  · next hop =>
      split at h
      · simp at h
      · next hne =>
          obtain ⟨ts, hts, rfl⟩ := Result.map_eq_ok_iff.1 h
          exact means_terms hop hi (by simpa using hne) hts
  · next hop =>
      split at h
      · next value hvalue =>
          obtain ⟨p, rfl, rfl⟩ := Result.map_eq_ok_iff.1 h
          rw [hraw] at hvalue
          exact means_of_alternatives (by simp only [alternatives, hop])
            (means_compared hi (denotes_comparand? hvalue).tokens _)
      · simp at h

end LeafKey

end KeyedQuery
