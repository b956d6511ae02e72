import KeyedQuery.Condition.Leaf
import KeyedQuery.Proofs.Result

/-!
# What operators support

An operator has a meaning for values of some shapes only. Without an operator, and with its
negation, a value is a single one or a list without lists in it. A range takes a list of two bounds,
a search a term or a list of terms that is not empty, and a comparison in order takes a number or a
text.

A condition is compiled exactly if the operator supports the shape of its value and every number in
it is finite. An unsupported shape is reported before a number without a literal, except among the
terms of a search, which are taken in order.
-/

namespace KeyedQuery

open LeafKey (searched)

namespace Value

def isNumberOrText (v : Value) : Bool := v.isNumeric || v.tag == .text

def nonFinite? : Value → Option Binary64
  | float x => if x.isFinite then none else some x
  | _ => none

def firstNonFinite? (v : Value) : Option Binary64 := (searched v).findSome? nonFinite?

theorem nonFinite?_float (x : Binary64) :
    nonFinite? (.float x) = if x.isFinite then none else some x := rfl

theorem nonFinite?_eq_none_iff {v : Value} :
    v.nonFinite? = none ↔ ∀ x, v = .float x → x.isFinite = true := by
  cases v <;> simp [nonFinite?]

theorem firstNonFinite?_eq_none_iff {v : Value} :
    v.firstNonFinite? = none ↔ ∀ x, .float x ∈ searched v → x.isFinite = true := by
  simp only [firstNonFinite?, List.findSome?_eq_none_iff, nonFinite?_eq_none_iff]
  exact ⟨fun h x hx => h _ hx x rfl, fun h v hv x hx => h x (hx ▸ hv)⟩

theorem firstNonFinite?_of_single {v : Value} (h : searched v = [v]) :
    v.firstNonFinite? = v.nonFinite? := by
  rw [firstNonFinite?, h, List.findSome?_singleton]

theorem error?_floatSql (x : Binary64) :
    Result.error? (floatSql x) = (nonFinite? (.float x)).map nonFinite := by
  rw [nonFinite?_float, floatSql]
  split <;> rfl

end Value

open Value

/-! ## The errors of literals -/

namespace Literal

theorem error?_ofValue (raw : Bool) (v : Value) :
    Result.error? (ofValue raw v) = v.nonFinite?.map nonFinite := by
  cases v with
  | float x => exact (Result.error?_map _ _).trans (error?_floatSql x)
  | null => rfl
  | bool b => rfl
  | int n => rfl
  | text t => rfl
  | list items => rfl

theorem error?_ofScalars (values : List Value) :
    Result.error? (ofScalars values) = (values.findSome? nonFinite?).map nonFinite := by
  have hitems : (fun v => Result.error? (ofScalar v)) = Option.map nonFinite ∘ nonFinite? :=
    funext (error?_ofValue false)
  rw [ofScalars, Result.error?_do (o := none) fun _ => rfl, Option.or_none, Result.error?_mapM,
    hitems, List.map_findSome?]

end Literal

/-! ## The errors of conditions -/

namespace LeafKey

/-- Whether the operator of the key has a meaning for the shape of the value. A number that is not
finite has the shape of a number: that it is refused is another matter. -/
def Supports (k : LeafKey) (v : Value) : Prop :=
  match k.operator with
  | none => ∀ item ∈ searched v, item.isList = false
  | some .differs => ∀ item ∈ searched v, item.isList = false
  | some (.between _) =>
      ∃ low high, v = .list [low, high] ∧ low.isNumberOrText = true ∧ high.isNumberOrText = true
  | some (.like _) => searched v ≠ [] ∧ ∀ item ∈ searched v, item.isNumberOrText = true
  | some (.comparison _) => v.isNumberOrText = true

variable (s : Settings) (k : LeafKey) (v : Value) (column : Fragment) (negated : Bool)

theorem searched_of_ne_list {v : Value} (h : ∀ items, v ≠ .list items) : searched v = [v] := by
  cases v with
  | list items => exact absurd rfl (h items)
  | _ => rfl

theorem error?_membership (items : List Value) :
    Result.error? (membership column negated items) =
      (items.findSome? nonFinite?).map nonFinite := by
  unfold membership
  split
  · next h =>
      obtain rfl : items = [] := by simpa using h
      rfl
  · rw [Result.error?_do (o := none) fun _ => rfl, Option.or_none, Literal.error?_ofScalars]

theorem error?_inferred (h : ∀ item ∈ searched v, item.isList = false) :
    Result.error? (inferred column k negated v) = v.firstNonFinite?.map nonFinite := by
  cases v with
  | null => rfl
  | list items =>
      have hflat : items.any Value.isList = false := by simpa [searched] using h
      rw [inferred, hflat]
      exact error?_membership column negated items
  | bool b => rfl
  | int n => rfl
  | float x =>
      rw [firstNonFinite?_of_single rfl, ← Literal.error?_ofValue k.raw]
      exact Result.error?_map _ _
  | text t => rfl

theorem inferred_of_isList (h : ¬ ∀ item ∈ searched v, item.isList = false) :
    inferred column k negated v = .error (k.unsupported v) := by
  cases v with
  | list items =>
      have hnested : items.any Value.isList = true := by simpa [searched] using h
      rw [inferred, hnested]
      rfl
  | null => simp [searched, Value.isList] at h
  | bool b => simp [searched, Value.isList] at h
  | int n => simp [searched, Value.isList] at h
  | float x => simp [searched, Value.isList] at h
  | text t => simp [searched, Value.isList] at h

theorem error?_range (low high : Value) :
    Result.error? (range column negated low high) =
      (Value.list [low, high]).firstNonFinite?.map nonFinite := by
  have hhigh : ∀ p, Result.error? (Literal.ofScalar high >>= fun q => pure (Fragment.parens
      (column ++
        [.code (if negated then " NOT BETWEEN " else " BETWEEN "), p, .code " AND ", q]))) =
      high.nonFinite?.map nonFinite := by
    intro p
    rw [Result.error?_do (o := none) fun _ => rfl, Option.or_none]
    exact Literal.error?_ofValue false high
  rw [range, Result.error?_do hhigh, Literal.ofScalar, Literal.error?_ofValue]
  simp only [firstNonFinite?, searched, List.findSome?_cons, List.findSome?_nil]
  cases low.nonFinite? with
  | none => cases high.nonFinite? <;> rfl
  | some x => rfl

/-- What is wrong with an item of a search, if anything. -/
def itemError? (item : Value) : Option Error :=
  if item.isNumberOrText then item.nonFinite?.map nonFinite else some (k.unsupported v)

theorem itemError?_eq_none_iff {item : Value} :
    k.itemError? v item = none ↔ item.isNumberOrText = true ∧ item.nonFinite? = none := by
  unfold itemError?
  split <;> simp_all

theorem itemError?_of_nonFinite? {item : Value} {x : Binary64} (h : item.nonFinite? = some x) :
    k.itemError? v item = some (nonFinite x) := by
  cases item with
  | float y =>
      have hterm : isNumberOrText (.float y) = true := rfl
      rw [itemError?, if_pos hterm, h]
      rfl
  | _ => cases h

theorem error?_term (item : Value) :
    Result.error? ((term? item).getD (.error (k.unsupported v))) = k.itemError? v item := by
  cases item with
  | float x => exact error?_floatSql x
  | null => rfl
  | bool b => rfl
  | int n => rfl
  | text t => rfl
  | list items => rfl

theorem error?_terms :
    Result.error? (terms k v) = (searched v).findSome? (k.itemError? v) := by
  rw [terms, Result.error?_mapM]
  exact congrArg (List.findSome? · _) (funext fun item => k.error?_term v item)

/-- Where all items are terms, the first number that is not finite is at fault. -/
theorem findSome?_itemError? {items : List Value} (h : ∀ item ∈ items, item.isNumberOrText = true) :
    items.findSome? (k.itemError? v) = (items.findSome? nonFinite?).map nonFinite := by
  induction items with
  | nil => rfl
  | cons item items ih =>
      obtain ⟨hitem, hitems⟩ := List.forall_mem_cons.1 h
      rw [List.findSome?_cons, List.findSome?_cons, itemError?, if_pos hitem, ih hitems]
      cases item.nonFinite? <;> rfl

theorem comparand?_eq_none_iff (raw : Bool) :
    comparand? raw v = none ↔ v.isNumberOrText = false := by
  cases v <;> simp [comparand?, Value.numericSql?, isNumberOrText, Value.isNumeric, Value.tag]

theorem error?_comparand? {raw : Bool} {value : Result Piece} (h : comparand? raw v = some value) :
    Result.error? value = v.firstNonFinite?.map nonFinite := by
  cases v with
  | int n =>
      obtain rfl := Option.some.inj h
      rfl
  | text t =>
      obtain rfl := Option.some.inj h
      rfl
  | float x =>
      obtain rfl := Option.some.inj h
      rw [Result.error?_map, error?_floatSql, firstNonFinite?_of_single rfl]
  | null => simp [comparand?, Value.numericSql?] at h
  | bool b => simp [comparand?, Value.numericSql?] at h
  | list items => simp [comparand?, Value.numericSql?] at h

/-! ## The table of operators -/

theorem isBound_eq (v : Value) : isBound v = v.isNumberOrText := by
  cases v <;> rfl

theorem error?_toSql_of_like (hop : k.operator = some (.like negated)) (hne : searched v ≠ []) :
    Result.error? (k.toSql s v) = (searched v).findSome? (k.itemError? v) := by
  have hsome : ¬ (searched v).isEmpty = true := by simpa using hne
  simp only [toSql, hop]
  rw [if_neg hsome, Result.error?_map, error?_terms]

/-- Where the operator has a meaning for the shape of the value, the error is that of the first
number that is not finite, if there is one. -/
theorem error?_toSql_of_supports (h : k.Supports v) :
    Result.error? (k.toSql s v) = v.firstNonFinite?.map nonFinite := by
  unfold Supports at h
  cases hop : k.operator with
  | none =>
      rw [hop] at h
      simp only [toSql, hop]
      exact error?_inferred k v _ false h
  | some op =>
      rw [hop] at h
      cases op with
      | differs =>
          simp only [toSql, hop]
          exact error?_inferred k v _ true h
      | between negated =>
          obtain ⟨low, high, rfl, hlow, hhigh⟩ := h
          simp only [toSql, hop, isBound_eq, hlow, hhigh]
          exact error?_range _ negated low high
      | like negated =>
          rw [error?_toSql_of_like s k v negated hop h.1]
          exact findSome?_itemError? k v h.2
      | comparison c =>
          simp only [toSql, hop]
          split
          · next value hvalue => exact (Result.error?_map _ _).trans (error?_comparand? v hvalue)
          · next hnone =>
              rw [(comparand?_eq_none_iff v k.raw).1 hnone] at h
              cases h

/-- Where the operator has no meaning for the shape of the value, the error says so, unless the
terms of a search are to be told apart. -/
theorem toSql_of_not_supports (h : ¬ k.Supports v)
    (hitems : ∀ negated item items, k.operator = some (.like negated) →
      v ≠ .list (item :: items)) :
    k.toSql s v = .error (k.unsupported v) := by
  unfold Supports at h
  cases hop : k.operator with
  | none =>
      rw [hop] at h
      simp only [toSql, hop]
      exact inferred_of_isList k v _ false h
  | some op =>
      rw [hop] at h
      simp only [toSql, hop]
      cases op with
      | differs => exact inferred_of_isList k v _ true h
      | between negated =>
          simp only
          split
          · next low high =>
              rw [if_neg]
              simp only [isBound_eq, Bool.and_eq_true]
              exact fun hbounds => h ⟨low, high, rfl, hbounds⟩
          · rfl
      | like negated =>
          simp only
          split
          · rfl
          · next hne =>
              have hsingle : searched v = [v] := by
                refine searched_of_ne_list fun items hv => ?_
                cases items with
                | nil => exact hne (by rw [hv]; rfl)
                | cons item items => exact hitems negated item items hop hv
              have hterm : v.isNumberOrText = false := by simpa [hsingle] using h
              have hterms : terms k v = .error (k.unsupported v) := by
                rw [← Result.error?_eq_some_iff, error?_terms, hsingle, List.findSome?_singleton,
                  itemError?, if_neg (by simp [hterm])]
              rw [hterms]
              rfl
      | comparison c =>
          simp only
          split
          · next value hvalue =>
              have hnone := (comparand?_eq_none_iff v k.raw).2 (by simpa using h)
              rw [hnone] at hvalue
              cases hvalue
          · rfl

/-- The first term at fault decides. -/
theorem toSql_of_itemError? {negated : Bool} {before after : List Value} {item : Value} {e : Error}
    (hop : k.operator = some (.like negated)) (hv : v = .list (before ++ item :: after))
    (hbefore : ∀ i ∈ before, i.isNumberOrText = true ∧ i.nonFinite? = none)
    (hitem : k.itemError? v item = some e) : k.toSql s v = .error e := by
  have hsearched : searched v = before ++ item :: after := by rw [hv, searched]
  rw [← Result.error?_eq_some_iff, error?_toSql_of_like s k v negated hop (by simp [hsearched]),
    List.findSome?_eq_some_iff]
  exact ⟨before, item, after, hsearched, hitem,
    fun i hi => (itemError?_eq_none_iff k v).2 (hbefore i hi)⟩

/-- What is compiled has a shape that the operator supports. -/
theorem supports_of_toSql {f : Fragment} (h : k.toSql s v = .ok f) : k.Supports v := by
  by_contra hshape
  by_cases hitems : ∀ negated item items, k.operator = some (.like negated) →
      v ≠ .list (item :: items)
  · rw [toSql_of_not_supports s k v hshape hitems] at h
    cases h
  · push Not at hitems
    obtain ⟨negated, item, items, hop, hv⟩ := hitems
    have hne : searched v ≠ [] := by simp [hv, searched]
    have hnone := Result.error?_eq_none_iff.2 ⟨f, h⟩
    rw [error?_toSql_of_like s k v negated hop hne, List.findSome?_eq_none_iff] at hnone
    have hterms : ∀ i ∈ searched v, i.isNumberOrText = true :=
      fun i hi => ((itemError?_eq_none_iff k v).1 (hnone i hi)).1
    rw [Supports, hop] at hshape
    exact hshape ⟨hne, hterms⟩

/-- A condition is compiled exactly if the operator of its key supports the shape of its value and
every number in the value is finite. An unsupported shape is reported with the column, the display
form of the operator and the tag of the value, and a number that is not finite as a value without a
literal. Among the terms of a search the first that is at fault decides. -/
theorem toSql_outcome (s : Settings) (k : LeafKey) (v : Value) :
    ((∃ f, k.toSql s v = .ok f) ↔
      k.Supports v ∧ ∀ x, .float x ∈ searched v → x.isFinite = true) ∧
    (k.Supports v → ∀ x, v.firstNonFinite? = some x → k.toSql s v = .error (nonFinite x)) ∧
    (¬ k.Supports v →
      (∀ negated item items, k.operator = some (.like negated) → v ≠ .list (item :: items)) →
      k.toSql s v = .error (.unsupportedOperator k.column
        ((k.operator.map Operator.display).getD "=") v.tag.name)) ∧
    ∀ negated before item after, k.operator = some (.like negated) →
      v = .list (before ++ item :: after) →
      (∀ i ∈ before, i.isNumberOrText = true ∧ i.nonFinite? = none) →
      (item.isNumberOrText = false → k.toSql s v = .error (.unsupportedOperator k.column
        ((k.operator.map Operator.display).getD "=") v.tag.name)) ∧
      ∀ x, item.nonFinite? = some x → k.toSql s v = .error (nonFinite x) := by
  refine ⟨⟨?_, ?_⟩, ?_, toSql_of_not_supports s k v, ?_⟩
  · rintro ⟨f, hf⟩
    have hshape := supports_of_toSql s k v hf
    have hnone := Result.error?_eq_none_iff.2 ⟨f, hf⟩
    rw [error?_toSql_of_supports s k v hshape, Option.map_eq_none_iff] at hnone
    exact ⟨hshape, firstNonFinite?_eq_none_iff.1 hnone⟩
  · rintro ⟨hshape, hfinite⟩
    rw [← Result.error?_eq_none_iff, error?_toSql_of_supports s k v hshape,
      firstNonFinite?_eq_none_iff.2 hfinite]
    rfl
  · intro hshape x hx
    rw [← Result.error?_eq_some_iff, error?_toSql_of_supports s k v hshape, hx]
    rfl
  · intro negated before item after hop hv hbefore
    refine ⟨fun hitem => ?_, fun x hx => ?_⟩
    · exact toSql_of_itemError? s k v hop hv hbefore (if_neg (by simp [hitem]))
    · exact toSql_of_itemError? s k v hop hv hbefore (itemError?_of_nonFinite? k v hx)

/-- Of two terms at fault the first one decides. -/
example :
    toSql ⟨.mysql, .ansi, ""⟩ ⟨false, "a", some (.like true)⟩ (.list [.int 1, .float .nan, .null]) =
      .error (nonFinite .nan) ∧
    toSql ⟨.mysql, .ansi, ""⟩ ⟨false, "a", some (.like true)⟩ (.list [.int 1, .null, .float .nan]) =
      .error (.unsupportedOperator "a" "[!~]" "list") :=
  ⟨rfl, rfl⟩

end LeafKey

end KeyedQuery
