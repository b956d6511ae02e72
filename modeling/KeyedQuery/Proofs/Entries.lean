import KeyedQuery.Entries
import Mathlib.Data.List.Nodup

/-!
# Entries under a key

What is found under a key in entries that were chosen by their keys or by the presence of their
values, or put together from others. Under distinct keys every entry is found, so entries among
which the same is found are permutations of each other.
-/

namespace KeyedQuery.Entries

variable {α : Type} {m n : Entries α} {key : String} {v : α}

theorem get?_isSome_iff : (get? m key).isSome ↔ key ∈ keys m := by
  rw [Option.isSome_iff_ne_none, ne_eq, get?_eq_none_iff, not_not]

theorem mem_of_get?_eq_some (h : get? m key = some v) : (key, v) ∈ m := by
  induction m with
  | nil => simp at h
  | cons e m ih =>
      obtain ⟨k, w⟩ := e
      rw [get?_cons] at h
      split at h
      · next hk =>
          rw [← Option.some.inj h, ← hk]
          exact List.mem_cons_self
      · exact List.mem_cons_of_mem _ (ih h)

/-- Where keys are distinct, every entry is found under its key. -/
theorem get?_eq_some_iff (h : (keys m).Nodup) : get? m key = some v ↔ (key, v) ∈ m := by
  refine ⟨mem_of_get?_eq_some, fun hmem => ?_⟩
  obtain ⟨w, hw⟩ := Option.isSome_iff_exists.1
    (get?_isSome_iff.2 (List.mem_map_of_mem (f := Prod.fst) hmem))
  have hentry := List.inj_on_of_nodup_map h (mem_of_get?_eq_some hw) hmem rfl
  rw [hw, (Prod.mk.inj hentry).2]

/-- Entries under distinct keys among which the same is found differ in their order alone. -/
theorem perm_of_get?_eq (hm : (keys m).Nodup) (hn : (keys n).Nodup)
    (h : ∀ key, get? m key = get? n key) : m.Perm n := by
  rw [List.perm_ext_iff_of_nodup (List.Nodup.of_map Prod.fst hm) (List.Nodup.of_map Prod.fst hn)]
  rintro ⟨key, v⟩
  rw [← get?_eq_some_iff hm, ← get?_eq_some_iff hn, h]

theorem mem_of_mem_insert {e : String × α} (h : e ∈ insert m key v) : e ∈ m ∨ e = (key, v) := by
  induction m with
  | nil => exact .inr (List.mem_singleton.1 h)
  | cons f m ih =>
      obtain ⟨k, w⟩ := f
      unfold insert at h
      split at h
      · exact (List.mem_cons.1 h).symm.imp (List.mem_cons_of_mem _) id
      · rcases List.mem_cons.1 h with rfl | h
        · exact .inl List.mem_cons_self
        · exact (ih h).imp (List.mem_cons_of_mem _) id

theorem mem_of_mem_ofList {pairs : List (String × α)} {e : String × α} (h : e ∈ ofList pairs) :
    e ∈ pairs := by
  have hfold : ∀ m : Entries α, e ∈ pairs.foldl (fun m p => insert m p.1 p.2) m →
      e ∈ m ∨ e ∈ pairs := by
    clear h
    induction pairs with
    | nil => exact fun m h => .inl h
    | cons p rest ih =>
        intro m h
        rcases ih _ h with h | h
        · rcases mem_of_mem_insert h with h | rfl
          · exact .inl h
          · exact .inr List.mem_cons_self
        · exact .inr (List.mem_cons_of_mem _ h)
  exact (hfold [] h).resolve_left List.not_mem_nil

theorem get?_append (m n : Entries α) (key : String) :
    get? (m ++ n) key = (get? m key).or (get? n key) := by
  induction m with
  | nil => rfl
  | cons e m ih =>
      obtain ⟨k, w⟩ := e
      rw [List.cons_append, get?_cons, get?_cons, ih]
      split <;> rfl

theorem get?_filter (p : String → Bool) (m : Entries α) (key : String) :
    get? (m.filter fun e => p e.1) key = if p key then get? m key else none := by
  induction m with
  | nil => simp
  | cons e m ih =>
      obtain ⟨k, w⟩ := e
      rw [get?_cons]
      by_cases hkey : k = key
      · subst hkey
        cases hp : p k with
        | true => rw [List.filter_cons_of_pos (by exact hp), get?_cons, if_pos rfl, if_pos rfl,
            if_pos rfl]
        | false => rw [List.filter_cons_of_neg (by simp [hp]), ih, hp, if_neg (by decide),
            if_neg (by decide)]
      · rw [if_neg hkey, ← ih]
        cases hp : p k with
        | true => rw [List.filter_cons_of_pos (by exact hp), get?_cons, if_neg hkey]
        | false => rw [List.filter_cons_of_neg (by simp [hp])]

def erase (m : Entries α) (key : String) : Entries α := m.filter fun e => decide (e.1 ≠ key)

theorem get?_erase (m : Entries α) (key other : String) :
    get? (erase m key) other = if key = other then none else get? m other := by
  rw [erase, get?_filter fun k => decide (k ≠ key)]
  by_cases ho : key = other
  · simp [ho]
  · simp [ho, Ne.symm ho]

def present (m : Entries (Option α)) : Entries α :=
  m.filterMap fun e => e.2.map fun v => (e.1, v)

theorem present_cons_some (m : Entries (Option α)) (key : String) (v : α) :
    present ((key, some v) :: m) = (key, v) :: present m := rfl

theorem present_cons_none (m : Entries (Option α)) (key : String) :
    present ((key, none) :: m) = present m := rfl

theorem mem_present {m : Entries (Option α)} {e : String × α} :
    e ∈ present m ↔ (e.1, some e.2) ∈ m := by
  rw [present, List.mem_filterMap]
  constructor
  · rintro ⟨⟨k, w⟩, hmem, hw⟩
    obtain ⟨v, rfl, rfl⟩ := Option.map_eq_some_iff.1 hw
    exact hmem
  · exact fun hmem => ⟨_, hmem, rfl⟩

theorem keys_present_sublist (m : Entries (Option α)) :
    (keys (present m)).Sublist (keys m) := by
  induction m with
  | nil => exact List.Sublist.refl _
  | cons e m ih =>
      obtain ⟨k, w⟩ := e
      cases w with
      | none => exact ih.trans (List.sublist_cons_self _ _)
      | some v => exact ih.cons_cons _

theorem get?_present {m : Entries (Option α)} (h : (keys m).Nodup) (key : String) :
    get? (present m) key = (get? m key).join := by
  induction m with
  | nil => rfl
  | cons e m ih =>
      obtain ⟨k, w⟩ := e
      rw [keys_cons, List.nodup_cons] at h
      have hrest := ih h.2
      rw [get?_cons]
      cases w with
      | some v =>
          rw [present_cons_some, get?_cons, hrest]
          split <;> rfl
      | none =>
          rw [present_cons_none, hrest]
          split
          · next hkey => rw [← hkey, (get?_eq_none_iff m k).2 h.1]; rfl
          · rfl

end KeyedQuery.Entries
