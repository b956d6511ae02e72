import KeyedQuery.Value.Basic

/-!
# Records

A record is a row of values under column keys, in the order in which the keys first arrived. Its
keys are distinct.
-/

namespace KeyedQuery

/-- A row of values under distinct column keys. -/
structure Record where
  entries : Entries Value := []
  nodup_keys : entries.keys.Nodup := by simp

namespace Record

def empty : Record := {}

/-- Sets a column, which keeps its place if it is present. -/
def set (r : Record) (column : String) (value : Value) : Record :=
  ⟨r.entries.insert column value, Entries.nodup_keys_insert _ _ _ r.nodup_keys⟩

def ofList (pairs : List (String × Value)) : Record :=
  ⟨Entries.ofList pairs, Entries.nodup_keys_ofList pairs⟩

def get? (r : Record) (column : String) : Option Value := Entries.get? r.entries column

def contains (r : Record) (column : String) : Bool := Entries.contains r.entries column

def size (r : Record) : Nat := r.entries.length

def isEmpty (r : Record) : Bool := r.entries.isEmpty

def keys (r : Record) : List String := Entries.keys r.entries

def ofJson (j : Json) : Result Record :=
  match j with
  | .obj fields => do
      let pairs ← fields.mapM fun (key, value) => do
        let value ← Value.ofJson value
        return (key, value)
      return ofList pairs
  | _ => fault .recordNotObject

@[simp] theorem keys_set_of_mem (r : Record) (column : String) (value : Value)
    (h : column ∈ r.keys) : (r.set column value).keys = r.keys :=
  Entries.keys_insert_of_mem _ _ _ h

@[simp] theorem keys_set_of_not_mem (r : Record) (column : String) (value : Value)
    (h : column ∉ r.keys) : (r.set column value).keys = r.keys ++ [column] :=
  Entries.keys_insert_of_not_mem _ _ _ h

theorem get?_set (r : Record) (column : String) (value : Value) (other : String) :
    (r.set column value).get? other = if column = other then some value else r.get? other :=
  Entries.get?_insert _ _ _ _

end Record

end KeyedQuery
