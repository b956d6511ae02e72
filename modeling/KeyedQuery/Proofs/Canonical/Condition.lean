import KeyedQuery.Condition.Node
import KeyedQuery.Proofs.Result

/-!
# Conditions in JSON

Conditions are written as JSON the way they are read: a group as an object, siblings as an array of
objects, a value as itself. What is written is read back as it was, but for the values that JSON
cannot tell apart: a number that is not finite becomes `null`, and an array under the key of a group
is a list of siblings if nothing but objects stands in it, so that an empty list of values is taken
for one.
-/

namespace KeyedQuery

namespace Json

mutual

/-- No object in the value has two fields under one key. -/
def Proper : Json → Prop
  | null => True
  | bool _ => True
  | num _ => True
  | str _ => True
  | arr items => ProperItems items
  | obj fields => ProperFields fields

def ProperItems : List Json → Prop
  | [] => True
  | item :: rest => item.Proper ∧ ProperItems rest

def ProperFields : List (String × Json) → Prop
  | [] => True
  | (key, j) :: rest => j.Proper ∧ key ∉ Entries.keys rest ∧ ProperFields rest

end

theorem proper_arr_iff {items : List Json} : (arr items).Proper ↔ ∀ j ∈ items, j.Proper := by
  rw [Proper]
  induction items with
  | nil => simp [ProperItems]
  | cons j items ih => rw [ProperItems, ih, List.forall_mem_cons]

theorem proper_obj_iff {fields : Entries Json} :
    (obj fields).Proper ↔ (Entries.keys fields).Nodup ∧ ∀ f ∈ fields, f.2.Proper := by
  rw [Proper]
  induction fields with
  | nil => simp [ProperFields]
  | cons f fields ih =>
      obtain ⟨key, j⟩ := f
      rw [ProperFields, ih, Entries.keys_cons, List.nodup_cons, List.forall_mem_cons]
      exact ⟨fun ⟨hj, hkey, hnodup, hrest⟩ => ⟨⟨hkey, hnodup⟩, hj, hrest⟩,
        fun ⟨⟨hkey, hnodup⟩, hj, hrest⟩ => ⟨hj, hkey, hnodup, hrest⟩⟩

theorem proper_arr_map {α : Type} {xs : List α} {f : α → Json} (h : ∀ x ∈ xs, (f x).Proper) :
    (arr (xs.map f)).Proper := by
  rw [proper_arr_iff, List.forall_mem_map]
  exact h

theorem proper_obj_map {α : Type} {xs : List α} {f : α → String × Json}
    (hkeys : (xs.map fun x => (f x).1).Nodup) (h : ∀ x ∈ xs, (f x).2.Proper) :
    (obj (xs.map f)).Proper := by
  rw [proper_obj_iff, Entries.keys, List.map_map, List.forall_mem_map]
  exact ⟨hkeys, h⟩

end Json

/-! ## Values -/

namespace Value

mutual

def allFinite : Value → Bool
  | null => true
  | bool _ => true
  | int _ => true
  | float x => x.isFinite
  | text _ => true
  | list items => eachFinite items

def eachFinite : List Value → Bool
  | [] => true
  | v :: rest => v.allFinite && eachFinite rest

end

theorem ofNumber_int (n : Int64) {h} : ofNumber (.int n.toInt h) = int n := by
  rw [ofNumber, (Numeral.int64?_eq_some_iff n.toInt n).2 rfl]

mutual

theorem ofJson_toJson : ∀ {v : Value}, v.allFinite = true → ofJson v.toJson = .ok v
  | null, _ => rfl
  | bool _, _ => rfl
  | int n, _ => congrArg Except.ok (ofNumber_int n)
  | float (.finite _), _ => rfl
  | float (.infinite _), h => nomatch h
  | float .nan, h => nomatch h
  | text _, _ => rfl
  | list items, h => by
      rw [toJson, ofJson, ofJsonAll_toJsonAll h]
      rfl

theorem ofJsonAll_toJsonAll :
    ∀ {items : List Value}, eachFinite items = true → ofJsonAll (toJsonAll items) = .ok items
  | [], _ => rfl
  | v :: rest, h => by
      obtain ⟨hv, hrest⟩ := Bool.and_eq_true_iff.1 h
      rw [toJsonAll, ofJsonAll, ofJson_toJson hv, ofJsonAll_toJsonAll hrest]
      rfl

end

mutual

theorem proper_toJson : ∀ v : Value, v.toJson.Proper
  | null => trivial
  | bool _ => trivial
  | int _ => trivial
  | float (.finite _) => trivial
  | float (.infinite _) => trivial
  | float .nan => trivial
  | text _ => trivial
  | list items => proper_toJsonAll items

theorem proper_toJsonAll : ∀ items : List Value, (Json.arr (toJsonAll items)).Proper
  | [] => trivial
  | v :: rest => ⟨proper_toJson v, proper_toJsonAll rest⟩

end

theorem isObject_toJson (v : Value) : v.toJson.isObject = false := by
  cases v with
  | float x => cases x <;> rfl
  | _ => rfl

end Value

/-! ## Conditions -/

namespace Node

mutual

def toJson : Node → Json
  | value v => v.toJson
  | group entries => .obj (toFields entries)
  | siblings groups => .arr (toItems groups)

def toFields : List (String × Node) → List (String × Json)
  | [] => []
  | (key, node) :: rest => (key, node.toJson) :: toFields rest

def toItems : List (List (String × Node)) → List Json
  | [] => []
  | entries :: rest => .obj (toFields entries) :: toItems rest

end

/-- Whether an array that holds a value under the key is not taken for siblings. -/
def admitsValue (key : String) : Value → Bool
  | .list [] => (GroupKey.parse? key).isNone
  | _ => true

mutual

/-- Whether a node is told apart from all others by its JSON form under the key. -/
def isRepresentable (key : String) : Node → Bool
  | value v => v.allFinite && admitsValue key v
  | group entries => areRepresentable entries
  | siblings groups => (GroupKey.parse? key).isSome && groupsAreRepresentable groups

/-- Whether the keys are distinct and their nodes representable. -/
def areRepresentable : List (String × Node) → Bool
  | [] => true
  | (key, node) :: rest =>
      node.isRepresentable key && decide (key ∉ Entries.keys rest) && areRepresentable rest

def groupsAreRepresentable : List (List (String × Node)) → Bool
  | [] => true
  | entries :: rest => areRepresentable entries && groupsAreRepresentable rest

end

theorem keys_toFields (entries : Conditions) :
    Entries.keys (toFields entries) = Entries.keys entries := by
  induction entries with
  | nil => rfl
  | cons e entries ih =>
      obtain ⟨key, node⟩ := e
      rw [toFields, Entries.keys_cons, Entries.keys_cons, ih]

theorem all_isObject_toItems (groups : List Conditions) :
    (toItems groups).all Json.isObject = true := by
  induction groups with
  | nil => rfl
  | cons entries groups ih => rw [toItems, List.all_cons, ih]; rfl

/-- What is neither a group nor a list of siblings is read as a value. -/
theorem ofJson_eq_map_value {key : String} {j : Json} (hobject : j.isObject = false)
    (hitems : ∀ items, j = .arr items → (GroupKey.parse? key).isSome = true →
      items.all Json.isObject = false) : ofJson key j = (Value.ofJson j).map value := by
  cases j with
  | null => rfl
  | bool b => rfl
  | num n => rfl
  | str s => rfl
  | arr items =>
      have harray : ((GroupKey.parse? key).isSome && items.all Json.isObject) = false := by
        cases hkey : (GroupKey.parse? key).isSome with
        | false => rfl
        | true => exact hitems items rfl hkey
      rw [ofJson, harray, if_neg (by decide)]
  | obj fields => exact absurd hobject (by simp [Json.isObject])

theorem ofJson_value {key : String} {v : Value} (hfinite : v.allFinite = true)
    (hkey : admitsValue key v = true) : ofJson key v.toJson = .ok (value v) := by
  rw [ofJson_eq_map_value v.isObject_toJson fun items hitems hgroup => ?_,
    Value.ofJson_toJson hfinite]
  · rfl
  · -- Only lists become arrays, and what stands in a list is no object.
    cases v with
    | list values =>
        obtain rfl := Json.arr.inj hitems
        cases values with
        | nil =>
            rw [admitsValue, Option.isNone_iff_eq_none] at hkey
            rw [hkey] at hgroup
            exact absurd hgroup (by decide)
        | cons v values => rw [Value.toJsonAll_cons, List.all_cons, v.isObject_toJson]; rfl
    | float x => cases x <;> simp [Value.toJson] at hitems
    | _ => simp [Value.toJson] at hitems

mutual

theorem ofJson_toJson : ∀ {key : String} {node : Node}, node.isRepresentable key = true →
    ofJson key node.toJson = .ok node
  | key, value v, h => by
      obtain ⟨hfinite, hkey⟩ := Bool.and_eq_true_iff.1 h
      exact ofJson_value hfinite hkey
  | key, group entries, h => by
      rw [toJson, ofJson, ofFields_toFields h]
      rfl
  | key, siblings groups, h => by
      obtain ⟨hkey, hgroups⟩ := Bool.and_eq_true_iff.1 h
      rw [toJson, ofJson, hkey, all_isObject_toItems, if_pos (by decide), ofItems_toItems hgroups]
      rfl

theorem ofFields_toFields : ∀ {entries : List (String × Node)},
    areRepresentable entries = true → ofFields (toFields entries) = .ok entries
  | [], _ => rfl
  | (key, node) :: rest, h => by
      simp only [areRepresentable, Bool.and_eq_true] at h
      obtain ⟨⟨hnode, -⟩, hrest⟩ := h
      rw [toFields, ofFields, ofJson_toJson hnode, ofFields_toFields hrest]
      rfl

theorem ofItems_toItems : ∀ {groups : List (List (String × Node))},
    groupsAreRepresentable groups = true → ofItems (toItems groups) = .ok groups
  | [], _ => rfl
  | entries :: rest, h => by
      obtain ⟨hentries, hrest⟩ := Bool.and_eq_true_iff.1 h
      rw [toItems, ofItems, ofFields_toFields hentries, ofItems_toItems hrest]
      rfl

end

mutual

theorem proper_toJson : ∀ {key : String} {node : Node}, node.isRepresentable key = true →
    node.toJson.Proper
  | _, value v, _ => v.proper_toJson
  | _, group _, h => proper_toFields h
  | _, siblings _, h => proper_toItems (Bool.and_eq_true_iff.1 h).2

theorem proper_toFields : ∀ {entries : List (String × Node)},
    areRepresentable entries = true → (Json.obj (toFields entries)).Proper
  | [], _ => trivial
  | (key, node) :: rest, h => by
      simp only [areRepresentable, Bool.and_eq_true, decide_eq_true_eq] at h
      obtain ⟨⟨hnode, hkey⟩, hrest⟩ := h
      exact ⟨proper_toJson hnode, (keys_toFields rest).symm ▸ hkey, proper_toFields hrest⟩

theorem proper_toItems : ∀ {groups : List (List (String × Node))},
    groupsAreRepresentable groups = true → (Json.arr (toItems groups)).Proper
  | [], _ => trivial
  | entries :: rest, h => by
      obtain ⟨hentries, hrest⟩ := Bool.and_eq_true_iff.1 h
      exact ⟨proper_toFields hentries, proper_toItems hrest⟩

end

end Node

end KeyedQuery
