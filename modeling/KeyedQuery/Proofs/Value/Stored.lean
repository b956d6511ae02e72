import KeyedQuery.Json.Parser
import KeyedQuery.Proofs.Canonical.Condition
import KeyedQuery.Proofs.Json.Token
import KeyedQuery.Proofs.Sql.Literal
import KeyedQuery.Write.Statement

/-!
# Stored lists

A list is stored as the text of its JSON form inside a string literal. The literal gives the text
back, and the text gives the list back, if the reader may go as deep as the list is nested. Lists
whose numbers are integers are considered here; how binary64 numbers are written is another matter.
-/

namespace KeyedQuery

namespace Json.Reader

/-! ## Runs of the reader -/

variable (limit : Nat) (r : Reader)

/-- What the reader expects after a text. -/
def run (cs : List Char) : Option Reader :=
  (tokenize cs).bind fun tokens => tokens.foldlM (step limit) r

@[simp] theorem run_nil : r.run limit [] = some r := by
  simp [run, tokenize_nil]

theorem run_token {cs rest : List Char} {t : Token}
    (h : tokenize cs = (tokenize rest).map (t :: ·)) :
    r.run limit cs = (step limit r t).bind fun r' => r'.run limit rest := by
  unfold run
  rw [h]
  cases tokenize rest with
  | none => cases step limit r t <;> rfl
  | some tokens => rfl

theorem run_cons {c : Char} {rest : List Char} {t : Token} (hgap : isGap c = false)
    (hread : Token.read? c rest = some (t, rest)) :
    r.run limit (c :: rest) = (step limit r t).bind fun r' => r'.run limit rest :=
  run_token limit r (tokenize_cons hgap hread)

end Json.Reader

theorem Json.parseWithin?_eq_run (limit : Nat) (s : String) :
    parseWithin? limit s = (Reader.run limit (.value []) s.toList).bind Reader.result? := by
  rw [parseWithin?, Reader.run]
  cases tokenize s.toList <;> rfl

namespace Value

open Json (Reader EndsNumeral Token tokenize render renderItems)

/-! ## Values without binary64 numbers -/

mutual

def isExact : Value → Bool
  | null => true
  | bool _ => true
  | int _ => true
  | float _ => false
  | text _ => true
  | list items => eachExact items

def eachExact : List Value → Bool
  | [] => true
  | v :: rest => v.isExact && eachExact rest

end

mutual

def depth : Value → Nat
  | null => 0
  | bool _ => 0
  | int _ => 0
  | float _ => 0
  | text _ => 0
  | list items => depthOfEach items + 1

def depthOfEach : List Value → Nat
  | [] => 0
  | v :: rest => max v.depth (depthOfEach rest)

end

mutual

theorem allFinite_of_isExact : ∀ {v : Value}, v.isExact = true → v.allFinite = true
  | null, _ => rfl
  | bool _, _ => rfl
  | int _, _ => rfl
  | float _, h => nomatch h
  | text _, _ => rfl
  | list _, h => eachFinite_of_eachExact h

theorem eachFinite_of_eachExact :
    ∀ {items : List Value}, eachExact items = true → eachFinite items = true
  | [], _ => rfl
  | v :: rest, h => by
      obtain ⟨hv, hrest⟩ := Bool.and_eq_true_iff.1 h
      rw [eachFinite, allFinite_of_isExact hv, eachFinite_of_eachExact hrest]
      rfl

end

/-! ## Reading the text of a value -/

/-- The text of the items of an array, with the end of the array and what follows it. -/
def itemsText (items : List Value) (rest : List Char) : List Char :=
  [','].intercalate ((renderItems (toJsonAll items)).map String.toList) ++ ']' :: rest

theorem itemsText_nil (rest : List Char) : itemsText [] rest = ']' :: rest := rfl

theorem itemsText_singleton (v : Value) (rest : List Char) :
    itemsText [v] rest = v.toJson.render.toList ++ ']' :: rest := by
  simp [itemsText, renderItems]

theorem itemsText_cons_cons (v w : Value) (vs : List Value) (rest : List Char) :
    itemsText (v :: w :: vs) rest = v.toJson.render.toList ++ ',' :: itemsText (w :: vs) rest := by
  simp [itemsText, renderItems, List.intercalate_cons_cons]

theorem toList_list (items : List Value) (rest : List Char) :
    (list items).toJson.render.toList ++ rest = '[' :: itemsText items rest := by
  simp [toJson, render, itemsText, String.toList_intercalate]

theorem endsNumeral_cons {c : Char} (h : Json.isNumberChar c = false) (rest : List Char) :
    EndsNumeral (c :: rest) := by
  simpa [EndsNumeral] using h

theorem exists_itemsText (v : Value) (vs : List Value) (rest : List Char) :
    ∃ tail, itemsText (v :: vs) rest = v.toJson.render.toList ++ tail ∧ EndsNumeral tail := by
  cases vs with
  | nil => exact ⟨_, itemsText_singleton v rest, endsNumeral_cons (by decide) _⟩
  | cons w vs => exact ⟨_, itemsText_cons_cons v w vs rest, endsNumeral_cons (by decide) _⟩

theorem exists_scalarToken {v : Value} (hexact : v.isExact = true) (hlist : v.isList = false)
    {rest : List Char} (hrest : EndsNumeral rest) :
    ∃ t, tokenize (v.toJson.render.toList ++ rest) = (tokenize rest).map (t :: ·) ∧
      ∀ limit stack, Reader.begin limit stack t = some (.complete v.toJson stack) := by
  cases v with
  | null => exact ⟨_, Json.tokenize_null rest, fun _ _ => rfl⟩
  | bool b => exact ⟨_, Json.tokenize_bool b rest, fun _ _ => rfl⟩
  | int n => exact ⟨_, Json.tokenize_ofInt _ hrest, fun _ _ => rfl⟩
  | float x => cases hexact
  | text s => exact ⟨_, Json.tokenize_text s rest, fun _ _ => rfl⟩
  | list items => cases hlist

/-- The text of a value does not start with the end of an array. -/
theorem exists_firstToken {v : Value} (hexact : v.isExact = true) {rest : List Char}
    (hrest : EndsNumeral rest) :
    ∃ t cs, tokenize (v.toJson.render.toList ++ rest) = (tokenize cs).map (t :: ·) ∧
      t ≠ .closeArray := by
  by_cases hlist : v.isList = true
  · cases v with
    | list items =>
        rw [toList_list]
        exact ⟨.openArray, _, Json.tokenize_cons (by decide) rfl, nofun⟩
    | _ => cases hlist
  · obtain ⟨t, htoken, hbegin⟩ := exists_scalarToken hexact (eq_false_of_ne_true hlist) hrest
    refine ⟨t, rest, htoken, fun ht => ?_⟩
    subst ht
    exact nomatch hbegin 0 []

section

variable {limit : Nat}

theorem run_firstItem {v : Value} (h : v.isExact = true) (vs : List Value) (rest : List Char)
    (stack : List Json.Frame) :
    Reader.run limit (.firstItem stack) (itemsText (v :: vs) rest) =
      Reader.run limit (.value (.array [] :: stack)) (itemsText (v :: vs) rest) := by
  obtain ⟨tail, htext, htail⟩ := exists_itemsText v vs rest
  obtain ⟨t, cs, htoken, hopens⟩ := exists_firstToken h htail
  rw [htext, Reader.run_token _ _ htoken, Reader.run_token _ _ htoken]
  cases t with
  | closeArray => exact absurd rfl hopens
  | _ => rfl

theorem run_scalar {v : Value} (hexact : v.isExact = true) (hlist : v.isList = false)
    (hdepth : v.depth = 0) {rest : List Char} (hrest : EndsNumeral rest)
    (stack : List Json.Frame) :
    Reader.run limit (.value stack) (v.toJson.render.toList ++ rest) =
      if v.depth = 0 ∨ stack.length + v.depth < limit then
        Reader.run limit (.complete v.toJson stack) rest
      else none := by
  obtain ⟨t, htoken, hbegin⟩ := exists_scalarToken hexact hlist hrest
  rw [Reader.run_token _ _ htoken, if_pos (.inl hdepth), Reader.step, hbegin, Option.bind_some]

mutual

/-- The text of a value is read as its JSON form, if there is room for its lists. A value that is no
list needs no room. -/
theorem run_render : ∀ {v : Value}, v.isExact = true → ∀ {rest : List Char}, EndsNumeral rest →
    ∀ stack : List Json.Frame,
      Reader.run limit (.value stack) (v.toJson.render.toList ++ rest) =
        if v.depth = 0 ∨ stack.length + v.depth < limit then
          Reader.run limit (.complete v.toJson stack) rest
        else none
  | list items, hexact, rest, _, stack => by
      have hopen : Reader.run limit (.value stack) ('[' :: itemsText items rest) =
          if stack.length + 1 < limit then
            Reader.run limit (.firstItem stack) (itemsText items rest)
          else none := by
        rw [Reader.run_cons (t := .openArray) _ _ (by decide) rfl]
        simp only [Reader.step, Reader.begin]
        split <;> rfl
      rw [toList_list, hopen]
      match items, hexact with
      | [], _ =>
          have hclose : Reader.run limit (.firstItem stack) (']' :: rest) =
              Reader.run limit (.complete (list []).toJson stack) rest :=
            Reader.run_cons (t := .closeArray) _ _ (by decide) rfl
          simp [itemsText_nil, hclose, depth, depthOfEach]
      | v :: vs, hexact =>
          have hv := (Bool.and_eq_true_iff.1 hexact).1
          -- Inside the array one container more is open, and the room for its items is less by one.
          rw [run_firstItem hv, run_itemsText hexact (by simp), ← ite_and]
          exact if_congr (by simp only [depth]; omega) rfl rfl
  | null, h, rest, hrest, stack => run_scalar h rfl rfl hrest stack
  | bool _, h, rest, hrest, stack => run_scalar h rfl rfl hrest stack
  | int _, h, rest, hrest, stack => run_scalar h rfl rfl hrest stack
  | float _, h, rest, hrest, stack => nomatch h
  | text _, h, rest, hrest, stack => run_scalar h rfl rfl hrest stack

theorem run_itemsText : ∀ {items : List Value}, eachExact items = true → items ≠ [] →
    ∀ (done : List Json) (stack : List Json.Frame) (rest : List Char),
      Reader.run limit (.value (.array done :: stack)) (itemsText items rest) =
        if depthOfEach items = 0 ∨ stack.length + 1 + depthOfEach items < limit then
          Reader.run limit (.complete (.arr (done.reverse ++ toJsonAll items)) stack) rest
        else none
  | [], _, hne, _, _, _ => absurd rfl hne
  | [v], hexact, _, done, stack, rest => by
      have hv := (Bool.and_eq_true_iff.1 hexact).1
      have hclose : Reader.run limit (.complete v.toJson (.array done :: stack)) (']' :: rest) =
          Reader.run limit (.complete (.arr (done.reverse ++ [v.toJson])) stack) rest := by
        rw [Reader.run_cons (t := .closeArray) _ _ (by decide) rfl]
        simp [Reader.step, Reader.proceed]
      rw [itemsText_singleton, run_render hv (endsNumeral_cons (by decide) rest), hclose]
      simp [depthOfEach]
  | v :: w :: vs, hexact, _, done, stack, rest => by
      obtain ⟨hv, hrest⟩ := Bool.and_eq_true_iff.1 hexact
      have hcomma : Reader.run limit (.complete v.toJson (.array done :: stack))
          (',' :: itemsText (w :: vs) rest) =
          Reader.run limit (.value (.array (v.toJson :: done) :: stack))
            (itemsText (w :: vs) rest) := by
        rw [Reader.run_cons (t := .comma) _ _ (by decide) rfl]
        simp [Reader.step, Reader.proceed]
      rw [itemsText_cons_cons, run_render hv (endsNumeral_cons (by decide) _), hcomma,
        run_itemsText hrest (by simp)]
      have harray : (v.toJson :: done).reverse ++ toJsonAll (w :: vs) =
          done.reverse ++ toJsonAll (v :: w :: vs) := by simp
      rw [harray, ← ite_and]
      exact if_congr (by simp only [depthOfEach, List.length_cons]; omega) rfl rfl

end

end

/-- The text of a list is read as its JSON form by every reader that may go as deep as the list is
nested, and by no other. -/
theorem parseWithin?_render (limit : Nat) {items : List Value} (h : eachExact items = true) :
    Json.parseWithin? limit (list items).toJson.render =
      if (list items).depth < limit then some (list items).toJson else none := by
  have hexact : (list items).isExact = true := h
  have hrun : Reader.run limit (.value []) (list items).toJson.render.toList =
      if (list items).depth = 0 ∨ 0 + (list items).depth < limit then
        some (.complete (list items).toJson [])
      else none := by
    simpa using run_render hexact (by simp [EndsNumeral] : EndsNumeral []) []
  have hdepth : (list items).depth ≠ 0 := by simp [depth]
  rw [Json.parseWithin?_eq_run, hrun, Nat.zero_add]
  simp only [hdepth, false_or]
  split <;> rfl

def nested : Nat → List Value
  | 0 => []
  | n + 1 => [.list (nested n)]

theorem eachExact_nested (n : Nat) : eachExact (nested n) = true := by
  induction n with
  | zero => rfl
  | succ n ih => simp [nested, eachExact, isExact, ih]

theorem depthOfEach_nested (n : Nat) : depthOfEach (nested n) = n := by
  induction n with
  | zero => rfl
  | succ n ih => simp [nested, depthOfEach, depth, ih]

end Value

namespace Record

/-! ## The literal of a list -/

theorem literal_list (key : String) (items : List Value) :
    literal key (.list items) = .ok [.literal (Value.list items).toJson.render] := rfl

theorem takeLiteral?_list (s : Settings) (items : List Value) :
    s.dialect.takeLiteral? (Fragment.text s [.literal (Value.list items).toJson.render]) =
      some ((Value.list items).toJson.render, "") := by
  have htext : Fragment.text s [.literal (Value.list items).toJson.render] =
      s.dialect.quote (Value.list items).toJson.render := by
    simp [Fragment.text, Fragment.chars, Piece.chars, Dialect.quote]
  rw [htext, Dialect.takeLiteral?_quote]

/-- A list is always written, as one literal. What the literal says is read back as the list itself
by a reader that may go as deep as the list is nested, and is refused by every other reader. -/
theorem literal_list_outcome (s : Settings) (key : String) {items : List Value}
    (h : Value.eachExact items = true) :
    ∃ f json, literal key (.list items) = .ok f ∧
      s.dialect.takeLiteral? (f.text s) = some (json, "") ∧
      (∀ limit, (Json.parseWithin? limit json).map Value.ofJson =
        if (Value.list items).depth < limit then some (.ok (.list items)) else none) ∧
      (Json.parse? json).map Value.ofJson =
        if (Value.list items).depth < 128 then some (.ok (.list items)) else none := by
  have hvalue : Value.ofJson (Value.list items).toJson = .ok (.list items) :=
    Value.ofJson_toJson (Value.eachFinite_of_eachExact h)
  have hparse : ∀ limit,
      (Json.parseWithin? limit (Value.list items).toJson.render).map Value.ofJson =
        if (Value.list items).depth < limit then some (.ok (.list items)) else none := by
    intro limit
    rw [Value.parseWithin?_render limit h]
    split
    · rw [Option.map_some, hvalue]
    · rfl
  exact ⟨_, _, literal_list key items, takeLiteral?_list s items, hparse, hparse _⟩

/-- Texts with quotes, backslashes and control characters, beside lists in lists. -/
def mixedTags : List Value :=
  [.text "'\"\\\x00\x1f\n'", .null, .list [.int (-7), .bool true, .list [], .text "é😀\\"]]

theorem literal_list_mixedTags :
    ∃ f json, literal "#tags" (.list mixedTags) = .ok f ∧
      Dialect.takeLiteral? .mysql (f.text { dialect := .mysql }) = some (json, "") ∧
      (Json.parse? json).map Value.ofJson = some (.ok (.list mixedTags)) := by
  have hexact : Value.eachExact mixedTags = true := by decide
  obtain ⟨f, json, hliteral, htake, -, hparse⟩ :=
    literal_list_outcome { dialect := .mysql } "#tags" hexact
  rw [if_pos (by decide)] at hparse
  exact ⟨f, json, hliteral, htake, hparse⟩

/-- A list that is nested as deep as the reader may not go is written, but cannot be read. -/
theorem literal_nested_lost :
    Value.eachExact (Value.nested 127) = true ∧
      ∃ f json, literal "tags" (.list (Value.nested 127)) = .ok f ∧
        Dialect.takeLiteral? .mysql (f.text { dialect := .mysql }) = some (json, "") ∧
        Json.parse? json = none := by
  have hexact := Value.eachExact_nested 127
  refine ⟨hexact, _, _, literal_list _ _, takeLiteral?_list { dialect := .mysql } _, ?_⟩
  rw [Json.parse?, Value.parseWithin?_render _ hexact, if_neg]
  simp [Value.depth, Value.depthOfEach_nested, Json.nestingLimit]

end Record

end KeyedQuery
