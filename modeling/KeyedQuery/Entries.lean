/-!
# Entries in order of arrival

Conditions, records and JSON objects are lists of keyed entries that keep the order in which their
keys first arrived. Inserting under a key that is present replaces the value and moves nothing;
inserting under a new key appends. Where the keys of a list have to be distinct, that is a
hypothesis or a field of the type that holds the list.
-/

namespace KeyedQuery

abbrev Entries (α : Type) := List (String × α)

namespace Entries

variable {α : Type}

def keys (m : Entries α) : List String := m.map Prod.fst

def get? (m : Entries α) (key : String) : Option α :=
  match m with
  | [] => none
  | (k, v) :: rest => if k = key then some v else get? rest key

/-- Replaces the value under the key, or appends an entry. -/
def insert (m : Entries α) (key : String) (value : α) : Entries α :=
  match m with
  | [] => [(key, value)]
  | (k, v) :: rest => if k = key then (key, value) :: rest else (k, v) :: insert rest key value

/-- The entries that remain when a list of entries is inserted one by one. -/
def ofList (pairs : List (String × α)) : Entries α :=
  pairs.foldl (fun m p => insert m p.1 p.2) []

def contains (m : Entries α) (key : String) : Bool := (get? m key).isSome

@[simp] theorem keys_nil : keys ([] : Entries α) = [] := rfl

@[simp] theorem keys_cons (p : String × α) (m : Entries α) : keys (p :: m) = p.1 :: keys m := rfl

@[simp] theorem get?_nil (key : String) : get? ([] : Entries α) key = none := rfl

theorem get?_cons (k : String) (v : α) (m : Entries α) (key : String) :
    get? ((k, v) :: m) key = if k = key then some v else get? m key := rfl

theorem get?_eq_none_iff (m : Entries α) (key : String) : get? m key = none ↔ key ∉ keys m := by
  induction m with
  | nil => simp
  | cons p rest ih =>
      obtain ⟨k, v⟩ := p
      by_cases h : k = key
      · simp [get?_cons, h]
      · have h' : ¬ key = k := fun e => h e.symm
        simp [get?_cons, h, h', ih]

theorem keys_insert_of_mem (m : Entries α) (key : String) (value : α) (h : key ∈ keys m) :
    keys (insert m key value) = keys m := by
  induction m with
  | nil => simp at h
  | cons p rest ih =>
      obtain ⟨k, v⟩ := p
      by_cases hk : k = key
      · simp [insert, hk]
      · have hrest : key ∈ keys rest := by
          simp only [keys_cons, List.mem_cons] at h
          exact h.resolve_left fun e => hk e.symm
        simp [insert, hk, ih hrest]

theorem keys_insert_of_not_mem (m : Entries α) (key : String) (value : α) (h : key ∉ keys m) :
    keys (insert m key value) = keys m ++ [key] := by
  induction m with
  | nil => rfl
  | cons p rest ih =>
      obtain ⟨k, v⟩ := p
      simp only [keys_cons, List.mem_cons, not_or] at h
      have hk : ¬ k = key := fun e => h.1 e.symm
      simp [insert, hk, ih h.2]

/-- The value inserted is found under its key, and every other key keeps its value. -/
theorem get?_insert (m : Entries α) (key : String) (value : α) (other : String) :
    get? (insert m key value) other = if key = other then some value else get? m other := by
  induction m with
  | nil => simp [insert, get?_cons]
  | cons p rest ih =>
      obtain ⟨k, v⟩ := p
      by_cases hk : k = key
      · subst hk
        by_cases ho : k = other <;> simp [insert, get?_cons, ho]
      · by_cases ho : k = other
        · subst ho
          have hkey : ¬ key = k := fun e => hk e.symm
          simp [insert, hk, get?_cons, hkey]
        · simp [insert, hk, get?_cons, ho, ih]

theorem nodup_keys_insert (m : Entries α) (key : String) (value : α) (h : (keys m).Nodup) :
    (keys (insert m key value)).Nodup := by
  by_cases hk : key ∈ keys m
  · rw [keys_insert_of_mem m key value hk]
    exact h
  · rw [keys_insert_of_not_mem m key value hk, List.nodup_append]
    refine ⟨h, by simp, ?_⟩
    intro a ha b hb
    rw [List.mem_singleton] at hb
    subst hb
    exact fun e => hk (e ▸ ha)

theorem nodup_keys_foldl_insert (pairs : List (String × α)) (m : Entries α)
    (h : (keys m).Nodup) :
    (keys (pairs.foldl (fun m p => insert m p.1 p.2) m)).Nodup := by
  induction pairs generalizing m with
  | nil => exact h
  | cons p rest ih => exact ih _ (nodup_keys_insert m p.1 p.2 h)

theorem nodup_keys_ofList (pairs : List (String × α)) : (keys (ofList pairs)).Nodup :=
  nodup_keys_foldl_insert pairs [] (by simp)

end Entries

end KeyedQuery
