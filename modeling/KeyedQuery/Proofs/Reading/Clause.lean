import KeyedQuery.Clause.Clauses
import KeyedQuery.Proofs.Entries
import KeyedQuery.Proofs.Result

/-!
# Reading clauses

The clauses of a statement are read in two rounds, first from among the conditions and then, as far
as they are not yet set, from beside them. Put together, of every clause one value counts and is
read: the one among the conditions if there is one. Only an empty array of columns to group by gives
way to the value beside the conditions, because it leaves the clause as if it were not set.
-/

namespace KeyedQuery

theorem Node.keys_ofFields {fields : Entries Json} {entries : Conditions}
    (h : ofFields fields = .ok entries) : Entries.keys entries = Entries.keys fields := by
  induction fields generalizing entries with
  | nil =>
      obtain rfl : [] = entries := Except.ok.inj h
      rfl
  | cons f fields ih =>
      obtain ⟨key, j⟩ := f
      simp only [ofFields, Result.do_eq_ok_iff, Result.pure_eq_ok_iff] at h
      obtain ⟨node, -, nodes, hnodes, rfl⟩ := h
      rw [Entries.keys_cons, Entries.keys_cons, ih hnodes]

namespace Clauses

variable {α : Type} {inner fields : Entries Json} {key : String} {read : Json → Result α}
  {c d : Clauses}

/-! ## One clause -/

def readOption (read : Json → Result α) : Option Json → Result (Option α)
  | none => .ok none
  | some j => (read j).map some

def readGroups : Option Json → Result (List String)
  | none => .ok []
  | some j => readGroup j

/-- Whether the value among the conditions gives way to the one beside them. -/
def givesWay (key : String) : Json → Bool
  | .arr [] => key == "GROUP"
  | _ => false

/-- The value of a clause that counts, given the fields among the conditions and those beside. -/
def counting? (inner fields : Entries Json) (key : String) : Option Json :=
  match Entries.get? inner key with
  | none => Entries.get? fields key
  | some j => if givesWay key j then (Entries.get? fields key).or (some j) else some j

theorem counting?_of_none (h : Entries.get? inner key = none) :
    counting? inner fields key = Entries.get? fields key := by
  rw [counting?, h]

theorem counting?_of_some {j : Json} (h : Entries.get? inner key = some j)
    (hway : givesWay key j = false) : counting? inner fields key = some j := by
  simp [counting?, h, hway]

theorem counting?_of_givesWay {j : Json} (h : Entries.get? inner key = some j)
    (hway : givesWay key j = true) :
    counting? inner fields key = (Entries.get? fields key).or (some j) := by
  simp [counting?, h, hway]

theorem givesWay_iff {j : Json} : givesWay key j = true ↔ key = "GROUP" ∧ j = .arr [] := by
  unfold givesWay
  split
  · simp
  · next h => simpa using fun _ => h

theorem readOption_eq_ok_some {j : Json} {part : Option α}
    (h : readOption read (some j) = .ok part) : ∃ v, part = some v := by
  obtain ⟨v, -, rfl⟩ := Result.map_eq_ok_iff.1 h
  exact ⟨v, rfl⟩

theorem fill_none : fill none fields key read = readOption read (Entries.get? fields key) := by
  unfold fill readOption
  cases Entries.get? fields key <;> rfl

theorem fill_some (v : α) : fill (some v) fields key read = .ok (some v) := rfl

theorem fill_twice_eq_ok_iff (h : key ≠ "GROUP") {part : Option α} :
    (∃ first, fill none inner key read = .ok first ∧ fill first fields key read = .ok part) ↔
      readOption read (counting? inner fields key) = .ok part := by
  rw [fill_none]
  cases hinner : Entries.get? inner key with
  | none => simp [counting?_of_none hinner, readOption, fill_none]
  | some j =>
      have hway : givesWay key j = false := by
        rw [Bool.eq_false_iff, ne_eq, givesWay_iff]
        exact fun hgroup => h hgroup.1
      rw [counting?_of_some hinner hway]
      constructor
      · rintro ⟨first, hfirst, hpart⟩
        obtain ⟨v, rfl⟩ := readOption_eq_ok_some hfirst
        rw [fill_some] at hpart
        rwa [← Except.ok.inj hpart]
      · intro hpart
        obtain ⟨v, rfl⟩ := readOption_eq_ok_some hpart
        exact ⟨some v, hpart, rfl⟩

theorem fillGroup_nil :
    fillGroup [] fields = readGroups (Entries.get? fields "GROUP") := by
  unfold fillGroup readGroups
  cases Entries.get? fields "GROUP" <;> rfl

theorem fillGroup_of_ne_nil {group : List String} (h : group ≠ []) :
    fillGroup group fields = .ok group := by
  obtain ⟨column, rest, rfl⟩ := List.exists_cons_of_ne_nil h
  rfl

/-- Only the empty array holds no columns to group by. -/
theorem readGroup_eq_nil_iff {j : Json} {group : List String} (h : readGroup j = .ok group) :
    group = [] ↔ givesWay "GROUP" j = true := by
  cases j with
  | str name =>
      obtain rfl : [name] = group := Except.ok.inj h
      simp [givesWay]
  | arr items =>
      have hitems := Result.mapM_eq_ok_iff.1 h
      cases hitems with
      | nil => simp [givesWay]
      | cons _ _ => simp [givesWay]
  | null => simp [readGroup, fault] at h
  | bool b => simp [readGroup, fault] at h
  | num n => simp [readGroup, fault] at h
  | obj fields => simp [readGroup, fault] at h

theorem fillGroup_twice_eq_ok_iff {group : List String} :
    (∃ first, fillGroup [] inner = .ok first ∧ fillGroup first fields = .ok group) ↔
      readGroups (counting? inner fields "GROUP") = .ok group := by
  rw [fillGroup_nil]
  cases hinner : Entries.get? inner "GROUP" with
  | none => simp [counting?_of_none hinner, readGroups, fillGroup_nil]
  | some j =>
      cases hway : givesWay "GROUP" j with
      | true =>
          obtain ⟨-, rfl⟩ := givesWay_iff.1 hway
          have hempty : readGroups (some (.arr [])) = .ok [] := rfl
          have hnone : readGroups none = .ok [] := rfl
          rw [counting?_of_givesWay hinner hway, hempty]
          cases hfields : Entries.get? fields "GROUP" with
          | none => simp [fillGroup_nil, hfields, hempty, hnone]
          | some j => simp [fillGroup_nil, hfields]
      | false =>
          have hne : ∀ columns, readGroups (some j) = .ok columns → columns ≠ [] :=
            fun columns hcolumns hnil => by
              rw [(readGroup_eq_nil_iff hcolumns).1 hnil] at hway
              simp at hway
          rw [counting?_of_some hinner hway]
          constructor
          · rintro ⟨first, hfirst, hgroup⟩
            rw [fillGroup_of_ne_nil (hne first hfirst)] at hgroup
            rwa [← Except.ok.inj hgroup]
          · intro hgroup
            exact ⟨group, hgroup, fillGroup_of_ne_nil (hne group hgroup)⟩

/-! ## All clauses -/

/-- The clauses that are read from conditions and from the values that count. -/
structure ReadFrom (conditions : Entries Json) (value? : String → Option Json) (c : Clauses) :
    Prop where
  conditions : Node.ofFields conditions = .ok c.conditions
  group : readGroups (value? "GROUP") = .ok c.group
  order : readOption Order.ofJson (value? "ORDER") = .ok c.order
  having : readOption Conditions.ofJson (value? "HAVING") = .ok c.having
  limit : readOption Limit.ofJson (value? "LIMIT") = .ok c.limit
  fullText : readOption FullText.ofJson (value? "MATCH") = .ok c.fullText

theorem ReadFrom.congr {conditions : Entries Json} {value? other? : String → Option Json}
    (h : ReadFrom conditions value? c) (heq : ∀ key ∈ jsonKeys, value? key = other? key) :
    ReadFrom conditions other? c := by
  simp only [jsonKeys, List.forall_mem_cons] at heq
  obtain ⟨hgroup, horder, hhaving, hlimit, hmatch, -⟩ := heq
  exact ⟨h.conditions, hgroup ▸ h.group, horder ▸ h.order, hhaving ▸ h.having, hlimit ▸ h.limit,
    hmatch ▸ h.fullText⟩

theorem fillFrom_eq_ok_iff : c.fillFrom fields = .ok d ↔
    fillGroup c.group fields = .ok d.group ∧
      fill c.order fields "ORDER" Order.ofJson = .ok d.order ∧
      fill c.having fields "HAVING" Conditions.ofJson = .ok d.having ∧
      fill c.limit fields "LIMIT" Limit.ofJson = .ok d.limit ∧
      fill c.fullText fields "MATCH" FullText.ofJson = .ok d.fullText ∧
      c.conditions = d.conditions := by
  simp only [fillFrom, Result.do_eq_ok_iff, Result.pure_eq_ok_iff]
  constructor
  · rintro ⟨group, hgroup, order, horder, having, hhaving, limit, hlimit, fullText, hmatch, rfl⟩
    exact ⟨hgroup, horder, hhaving, hlimit, hmatch, rfl⟩
  · rintro ⟨hgroup, horder, hhaving, hlimit, hmatch, hconditions⟩
    exact ⟨_, hgroup, _, horder, _, hhaving, _, hlimit, _, hmatch, by rw [hconditions]⟩

/-- What the clauses of an object are read from if its `WHERE` holds an object. -/
theorem ofFields_eq_ok_iff (hwhere : Entries.get? fields "WHERE" = some (.obj inner)) :
    ofFields fields = .ok c ↔
      ReadFrom (inner.filter fun f => f.1 ∉ jsonKeys) (counting? inner fields) c := by
  rw [ofFields, hwhere]
  simp only [ofJson, Result.do_eq_ok_iff, fillFrom_eq_ok_iff]
  constructor
  · rintro ⟨first, ⟨conditions, hconditions, hgroup, horder, hhaving, hlimit, hmatch, rfl⟩,
      hgroup', horder', hhaving', hlimit', hmatch', hsame⟩
    exact ⟨hsame ▸ hconditions, fillGroup_twice_eq_ok_iff.1 ⟨_, hgroup, hgroup'⟩,
      (fill_twice_eq_ok_iff (by decide)).1 ⟨_, horder, horder'⟩,
      (fill_twice_eq_ok_iff (by decide)).1 ⟨_, hhaving, hhaving'⟩,
      (fill_twice_eq_ok_iff (by decide)).1 ⟨_, hlimit, hlimit'⟩,
      (fill_twice_eq_ok_iff (by decide)).1 ⟨_, hmatch, hmatch'⟩⟩
  · intro h
    obtain ⟨group, hgroup, hgroup'⟩ := fillGroup_twice_eq_ok_iff.2 h.group
    obtain ⟨order, horder, horder'⟩ := (fill_twice_eq_ok_iff (by decide)).2 h.order
    obtain ⟨having, hhaving, hhaving'⟩ := (fill_twice_eq_ok_iff (by decide)).2 h.having
    obtain ⟨limit, hlimit, hlimit'⟩ := (fill_twice_eq_ok_iff (by decide)).2 h.limit
    obtain ⟨fullText, hmatch, hmatch'⟩ := (fill_twice_eq_ok_iff (by decide)).2 h.fullText
    exact ⟨⟨c.conditions, fullText, group, having, order, limit⟩,
      ⟨c.conditions, h.conditions, hgroup, horder, hhaving, hlimit, hmatch, rfl⟩,
      hgroup', horder', hhaving', hlimit', hmatch', rfl⟩

theorem keys_conditions (hwhere : Entries.get? fields "WHERE" = some (.obj inner))
    (h : ofFields fields = .ok c) :
    Entries.keys c.conditions = (Entries.keys inner).filter fun key => key ∉ jsonKeys := by
  rw [Node.keys_ofFields ((ofFields_eq_ok_iff hwhere).1 h).conditions, Entries.keys, Entries.keys,
    List.filter_map]
  rfl

end Clauses

end KeyedQuery
