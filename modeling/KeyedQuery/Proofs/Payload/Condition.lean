import KeyedQuery.Proofs.Condition.Predicate
import KeyedQuery.Proofs.Payload.Value

/-!
# Payloads of conditions

The payloads of conditions are the texts under columns that are not raw, the texts inside lists, and
the terms of a search under any column. Emptying them changes a predicate in nothing but the content
of its string literals, and a predicate that is refused is refused with the same error.
-/

namespace KeyedQuery

namespace LeafKey

/-- Whether a text that stands alone under the key may be let through as it is. -/
def keepsText (k : LeafKey) : Bool :=
  match k.operator with
  | some (.like _) => false
  | _ => k.raw

/-- A value under a key with its payloads emptied. -/
def maskUnder (key : String) (v : Value) : Value :=
  match LeafKey.parse key with
  | .ok k => v.maskUnless k.keepsText
  | .error _ => v.maskUnless (Identifier.splitMarker key).1

variable {k : LeafKey}

/-- A value is refused with the same error whatever its payloads are. -/
theorem unsupported_maskUnless (kept : Bool) (v : Value) :
    k.unsupported (v.maskUnless kept) = k.unsupported v := by
  rw [unsupported, unsupported, v.tag_maskUnless]

theorem map_blank_membership (column : Fragment) (negated : Bool) (items : List Value) :
    (membership column negated (items.map Value.mask)).map Fragment.blank =
      (membership column negated items).map Fragment.blank := by
  unfold membership
  cases items with
  | nil => rfl
  | cons v items =>
      refine Result.map_do_congr (Literal.map_blank_ofScalars (v :: items)) fun f g h => ?_
      simp only [pure, Except.pure, Except.map, Fragment.blank_append, Fragment.blank_cons, h]

theorem map_blank_inferred (column : Fragment) (negated : Bool) (v : Value) :
    (inferred column k negated (v.maskUnless k.raw)).map Fragment.blank =
      (inferred column k negated v).map Fragment.blank := by
  have hequality : ∀ v, ((Literal.ofValue k.raw (v.maskUnless k.raw)).map
        (equality column negated)).map Fragment.blank =
      ((Literal.ofValue k.raw v).map (equality column negated)).map Fragment.blank := by
    intro v
    refine Result.map_map_congr (Literal.map_blank_ofValue k.raw v) fun p q h => ?_
    simp only [equality, Fragment.blank_append, Fragment.blank_cons, h]
  cases v with
  | null => rfl
  | bool b => exact hequality (.bool b)
  | int n => exact hequality (.int n)
  | float x => exact hequality (.float x)
  | text t => exact hequality (.text t)
  | list items =>
      have hany : (items.map Value.mask).any Value.isList = items.any Value.isList := by
        simp [Function.comp_def]
      simp only [Value.maskUnless, Value.mask, Value.maskAll_eq_map, inferred, hany]
      split
      · rfl
      · exact map_blank_membership column negated items

theorem map_blank_range (column : Fragment) (negated : Bool) (low high : Value) :
    (range column negated low.mask high.mask).map Fragment.blank =
      (range column negated low high).map Fragment.blank := by
  refine Result.map_do_congr (Literal.map_blank_ofScalar low) fun p p' hp => ?_
  refine Result.map_do_congr (Literal.map_blank_ofScalar high) fun q q' hq => ?_
  simp only [pure, Except.pure, Except.map, Fragment.blank_parens, Fragment.blank_append,
    Fragment.blank_cons, hp, hq]

theorem isBound_mask (v : Value) : isBound v.mask = isBound v := by
  cases v <;> rfl

theorem searched_maskUnless (v : Value) :
    searched (v.maskUnless false) = (searched v).map Value.mask := by
  cases v with
  | list items => exact Value.maskAll_eq_map items
  | null => rfl
  | bool b => rfl
  | int n => rfl
  | float x => rfl
  | text t => rfl

theorem map_length_terms (v : Value) :
    (terms k (v.maskUnless false)).map List.length = (terms k v).map List.length := by
  have hterm : ∀ item ∈ searched v,
      ((term? item.mask).getD (.error (k.unsupported (v.maskUnless false)))).map (fun _ => ()) =
        ((term? item).getD (.error (k.unsupported v))).map fun _ => () := by
    intro item _
    rw [unsupported_maskUnless]
    cases item <;> rfl
  have hunits := Result.map_mapM_congr (m := Value.mask)
    (f := fun item => (term? item).getD (.error (k.unsupported (v.maskUnless false))))
    (g := fun item => (term? item).getD (.error (k.unsupported v))) (k := fun _ => ()) hterm
  rw [← searched_maskUnless] at hunits
  have hlength : ∀ x : Result (List String), x.map List.length =
      (x.map (List.map fun _ => ())).map List.length := by
    intro x
    cases x <;> simp [Except.map]
  rw [hlength, hlength (terms k v)]
  exact congrArg (Except.map List.length) hunits

theorem blank_anyOf (fragments : List Fragment) :
    (anyOf fragments).blank = anyOf (fragments.map Fragment.blank) := by
  match fragments with
  | [] => rfl
  | [_] => rfl
  | f :: g :: rest =>
      change (Fragment.parens _).blank = Fragment.parens _
      rw [Fragment.blank_parens, Fragment.blank_join]
      rfl

theorem blank_matchOf (column : Fragment) (raw negated : Bool) (term : String) :
    (matchOf column raw negated term).blank =
      column.blank ++ [.code (if negated then " NOT LIKE " else " LIKE "), .literal ""] := by
  unfold matchOf
  rw [Literal.ofText_of_not_isFunctionCall (Pattern.isFunctionCall_ofTerm term)]
  simp [Piece.blank]

theorem blank_comparand? (raw : Bool) (v : Value) :
    (comparand? raw (v.maskUnless raw)).map (Except.map Piece.blank) =
      (comparand? raw v).map (Except.map Piece.blank) := by
  cases v with
  | text t =>
      have htext := Literal.blank_ofText raw t
      simp only [Value.maskUnless, comparand?, Option.map_some, Except.map, htext]
  | null => rfl
  | bool b => rfl
  | int n => rfl
  | float x => rfl
  | list items => rfl

theorem map_blank_between {negated : Bool} (hop : k.operator = some (.between negated))
    (s : Settings) (v : Value) :
    (k.toSql s (v.maskUnless k.raw)).map Fragment.blank = (k.toSql s v).map Fragment.blank := by
  have herror : (Except.error (k.unsupported (v.maskUnless k.raw)) : Result Fragment).map
      Fragment.blank = (Except.error (k.unsupported v)).map Fragment.blank := by
    rw [unsupported_maskUnless]
  unfold toSql
  simp only [hop]
  cases v with
  | list items =>
      match items with
      | [low, high] =>
          simp only [Value.maskUnless, Value.mask, Value.maskAll, isBound_mask]
          split
          · exact map_blank_range _ negated low high
          · exact herror
      | [] => exact herror
      | [_] => exact herror
      | _ :: _ :: _ :: _ => exact herror
  | null => exact herror
  | bool b => exact herror
  | int n => exact herror
  | float x => exact herror
  | text t => exact herror

theorem map_blank_like {negated : Bool} (hop : k.operator = some (.like negated)) (s : Settings)
    (v : Value) :
    (k.toSql s (v.maskUnless false)).map Fragment.blank = (k.toSql s v).map Fragment.blank := by
  unfold toSql
  simp only [hop, unsupported_maskUnless, searched_maskUnless, List.isEmpty_map]
  split
  · rfl
  · refine Result.map_map_congr (map_length_terms v) fun ts us h => ?_
    rw [blank_anyOf, blank_anyOf, List.map_map, List.map_map]
    simp only [Function.comp_def, blank_matchOf, List.map_const', h]

theorem map_blank_comparison {c : Comparison} (hop : k.operator = some (.comparison c))
    (s : Settings) (v : Value) :
    (k.toSql s (v.maskUnless k.raw)).map Fragment.blank = (k.toSql s v).map Fragment.blank := by
  have hcomparand := blank_comparand? k.raw v
  unfold toSql
  simp only [hop, unsupported_maskUnless]
  cases hmasked : comparand? k.raw (v.maskUnless k.raw) with
  | none =>
      cases hvalue : comparand? k.raw v with
      | none => rfl
      | some value => simp [hmasked, hvalue] at hcomparand
  | some masked =>
      cases hvalue : comparand? k.raw v with
      | none => simp [hmasked, hvalue] at hcomparand
      | some value =>
          rw [hmasked, hvalue, Option.map_some, Option.map_some, Option.some.injEq] at hcomparand
          refine Result.map_map_congr hcomparand fun p q h => ?_
          simp only [compared, Fragment.blank_append, Fragment.blank_cons, h]

/-- The payloads of a value under a key change nothing but the content of string literals. -/
theorem map_blank_toSql (s : Settings) (k : LeafKey) (v : Value) :
    (k.toSql s (v.maskUnless k.keepsText)).map Fragment.blank =
      (k.toSql s v).map Fragment.blank := by
  cases hop : k.operator with
  | none =>
      simp only [keepsText, toSql, hop]
      exact map_blank_inferred _ false v
  | some op =>
      cases op with
      | differs =>
          simp only [keepsText, toSql, hop]
          exact map_blank_inferred _ true v
      | between negated =>
          simp only [keepsText, hop]
          exact map_blank_between hop s v
      | like negated =>
          simp only [keepsText, hop]
          exact map_blank_like hop s v
      | comparison c =>
          simp only [keepsText, hop]
          exact map_blank_comparison hop s v

end LeafKey

mutual

def Node.mask (key : String) : Node → Node
  | .value v => .value (LeafKey.maskUnder key v)
  | .group entries => .group (Conditions.mask entries)
  | .siblings groups => .siblings (Conditions.maskGroups groups)

def Conditions.mask : Conditions → Conditions
  | [] => []
  | (key, node) :: rest => (key, node.mask key) :: Conditions.mask rest

def Conditions.maskGroups : List Conditions → List Conditions
  | [] => []
  | entries :: rest => Conditions.mask entries :: Conditions.maskGroups rest

end

theorem Conditions.maskGroups_eq_map (groups : List Conditions) :
    maskGroups groups = groups.map mask := by
  induction groups with
  | nil => rfl
  | cons entries rest ih => rw [maskGroups, ih, List.map_cons]

theorem Conditions.nonempty_mask (key : String) (m : Conditions) :
    nonempty key (mask m) = nonempty key m := by
  cases m <;> rfl

theorem Conditions.nonempty_maskGroups (key : String) (groups : List Conditions) :
    nonempty key (maskGroups groups) = nonempty key groups := by
  cases groups <;> rfl

mutual

theorem Node.map_blank_toSql (s : Settings) (outer : Conjunctor) (key : String) (node : Node) :
    ((node.mask key).toSql s outer key).map Fragment.blank =
      (node.toSql s outer key).map Fragment.blank := by
  cases node with
  | value v =>
      rw [Node.mask, Node.toSql, Node.toSql]
      split
      · rfl
      · unfold LeafKey.maskUnder
        cases LeafKey.parse key with
        | error e => rfl
        | ok k => exact LeafKey.map_blank_toSql s k v
  | group entries =>
      rw [Node.mask, Node.toSql, Node.toSql, Conditions.nonempty_mask]
      split
      · next g _ =>
          refine Result.map_do_congr_right fun _ => ?_
          refine Result.map_do_congr (Conditions.map_blank_compileEach s g.conjunctor entries)
            fun fs gs h => congrArg Except.ok ?_
          rw [Fragment.blank_parens, Fragment.blank_parens, Fragment.blank_join,
            Fragment.blank_join, h]
      · rfl
  | siblings groups =>
      rw [Node.mask, Node.toSql, Node.toSql, Conditions.nonempty_maskGroups]
      split
      · next g _ =>
          refine Result.map_do_congr_right fun _ => ?_
          refine Result.map_do_congr (Conditions.map_blank_compileGroups s g.conjunctor key groups)
            fun fs gs h => congrArg Except.ok ?_
          rw [Fragment.blank_parens, Fragment.blank_parens, Fragment.blank_join,
            Fragment.blank_join, Fragment.map_blank_map_parens, Fragment.map_blank_map_parens, h]
      · rfl

theorem Conditions.map_blank_compileEach (s : Settings) (outer : Conjunctor)
    (entries : List (String × Node)) :
    (Conditions.compileEach s outer (Conditions.mask entries)).map (List.map Fragment.blank) =
      (Conditions.compileEach s outer entries).map (List.map Fragment.blank) := by
  cases entries with
  | nil => rfl
  | cons p rest =>
      obtain ⟨key, node⟩ := p
      rw [Conditions.mask, Conditions.compileEach, Conditions.compileEach]
      refine Result.map_do_congr (Node.map_blank_toSql s outer key node) fun f g h => ?_
      refine Result.map_do_congr (Conditions.map_blank_compileEach s outer rest)
        fun fs gs hs => congrArg Except.ok ?_
      rw [List.map_cons, List.map_cons, h, hs]

theorem Conditions.map_blank_compileGroups (s : Settings) (inner : Conjunctor) (key : String)
    (groups : List (List (String × Node))) :
    (Conditions.compileGroups s inner key (Conditions.maskGroups groups)).map
        (List.map Fragment.blank) =
      (Conditions.compileGroups s inner key groups).map (List.map Fragment.blank) := by
  cases groups with
  | nil => rfl
  | cons entries rest =>
      rw [Conditions.maskGroups, Conditions.compileGroups, Conditions.compileGroups,
        Conditions.nonempty_mask]
      refine Result.map_do_congr_right fun _ => ?_
      refine Result.map_do_congr (Conditions.map_blank_compileEach s inner entries)
        fun fs gs h => ?_
      refine Result.map_do_congr (Conditions.map_blank_compileGroups s inner key rest)
        fun fs' gs' h' => congrArg Except.ok ?_
      rw [List.map_cons, List.map_cons, Fragment.blank_join, Fragment.blank_join, h, h']

end

namespace Conditions

theorem map_blank_toSql (s : Settings) (c : Conjunctor) (m : Conditions) :
    (m.mask.toSql s c).map Fragment.blank = (m.toSql s c).map Fragment.blank := by
  refine Result.map_map_congr (map_blank_compileEach s c m) fun fs gs h => ?_
  rw [Fragment.blank_join, Fragment.blank_join, h]

theorem bareGroup?_mask (c : Conjunctor) (m : Conditions) :
    m.mask.bareGroup? c = (m.bareGroup? c).map (Node.mask "") := by
  induction m with
  | nil => rfl
  | cons p rest ih =>
      obtain ⟨key, node⟩ := p
      unfold bareGroup? at ih ⊢
      have hgroup : (node.mask key).isGroup = node.isGroup := by
        cases node <;> rfl
      rw [mask, List.find?_cons, List.find?_cons]
      simp only [hgroup]
      split
      · next htrue =>
          have hnode : node.mask key = node.mask "" := by
            cases node with
            | value v => simp [Node.isGroup] at htrue
            | group entries => rfl
            | siblings groups => rfl
          rw [Option.map_some, Option.map_some, Option.map_some, hnode]
      · exact ih

theorem map_blank_topGroup (s : Settings) (c : Conjunctor) (node : Node) :
    (topGroup s c (node.mask "")).map Fragment.blank =
      (topGroup s c node).map Fragment.blank := by
  cases node with
  | value v => rfl
  | group entries =>
      cases entries with
      | nil => rfl
      | cons p entries => exact map_blank_toSql s c (p :: entries)
  | siblings groups =>
      cases groups with
      | nil => rfl
      | cons entries groups =>
          have hgroups := Result.map_mapM_congr (f := toSql s c) (g := toSql s c)
            fun m (_ : m ∈ entries :: groups) => map_blank_toSql s c m
          rw [Node.mask, maskGroups, maskGroups_eq_map]
          refine Result.map_do_congr hgroups fun fs gs h => congrArg Except.ok ?_
          rw [Fragment.blank_join, Fragment.blank_join, Fragment.map_blank_map_parens,
            Fragment.map_blank_map_parens, h]

/-- The payloads of conditions change nothing in their predicate but the content of literals. -/
theorem map_blank_predicate (s : Settings) (m : Conditions) :
    (m.mask.predicate s).map Fragment.blank = (m.predicate s).map Fragment.blank := by
  unfold predicate
  rw [bareGroup?_mask, bareGroup?_mask]
  cases m.bareGroup? .or with
  | some node => exact map_blank_topGroup s .or node
  | none =>
      cases m.bareGroup? .and with
      | some node => exact map_blank_topGroup s .and node
      | none => exact map_blank_toSql s .and m

end Conditions

end KeyedQuery
