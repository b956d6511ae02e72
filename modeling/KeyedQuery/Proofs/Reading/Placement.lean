import KeyedQuery.Proofs.Reading.Description

/-!
# Where clauses are placed

A clause of a query, an update or a deletion may stand among its conditions or beside them. Where it
stands in both places the one among the conditions is read, so the one beside may be changed or left
out. Where it stands beside only it may be moved among the conditions. An empty array of columns to
group by is the one value among the conditions that does not keep the value beside from being read.
-/

namespace KeyedQuery

open Clauses

/-- The readers of descriptions that have clauses. -/
inductive ReadsClauses : {α : Type} → (Json → Result α) → Prop where
  | query : ReadsClauses Query.ofJson
  | update : ReadsClauses Update.ofJson
  | deletion : ReadsClauses Deletion.ofJson

/-- Two objects agree, their conditions and clauses apart. -/
def AgreeApart (fields other : Entries Json) : Prop :=
  ∀ key ∉ "WHERE" :: jsonKeys, Entries.get? fields key = Entries.get? other key

namespace AgreeApart

variable {fields other : Entries Json}

theorem mem_keys (h : AgreeApart fields other) {key : String} (hkey : key ∈ Entries.keys other) :
    key ∈ "WHERE" :: jsonKeys ∨ key ∈ Entries.keys fields := by
  by_cases hclause : key ∈ "WHERE" :: jsonKeys
  · exact .inl hclause
  · exact .inr (Entries.get?_isSome_iff.1 (h key hclause ▸ Entries.get?_isSome_iff.2 hkey))

theorem findSome? (h : AgreeApart fields other) {keys : List String}
    (hkeys : ∀ key ∈ keys, key ∉ "WHERE" :: jsonKeys) :
    keys.findSome? (Entries.get? fields) = keys.findSome? (Entries.get? other) := by
  induction keys with
  | nil => rfl
  | cons key keys ih =>
      rw [List.forall_mem_cons] at hkeys
      rw [List.findSome?_cons, List.findSome?_cons, h key hkeys.1, ih hkeys.2]

theorem columnsField? (h : AgreeApart fields other) :
    Query.columnsField? fields = Query.columnsField? other := by
  unfold Query.columnsField? Entries.contains
  rw [h "COLUMNS" (by decide), h "TABLE" (by decide), h "FROM" (by decide), h "SELECT" (by decide)]

end AgreeApart

namespace ReadsClauses

variable {α : Type} {read : Json → Result α} {fields other : Entries Json} {a : α}

theorem exists_ofFields (hread : ReadsClauses read) (h : read (.obj fields) = .ok a) :
    ∃ c, Clauses.ofFields fields = .ok c := by
  cases hread with
  | query => exact ⟨_, (Query.ofFields_eq_ok_iff.1 h).2.2.2.2.1⟩
  | update => exact ⟨_, (Update.ofJson_eq_ok_iff.1 h).2.2.2⟩
  | deletion => exact ⟨_, (Deletion.ofJson_eq_ok_iff.1 h).2.2⟩

/-- A description is read as before if its clauses are and nothing else is changed. -/
theorem ok_of_agreeApart (hread : ReadsClauses read) (h : read (.obj fields) = .ok a)
    (hagree : AgreeApart fields other)
    (hclauses : ∀ c, Clauses.ofFields fields = .ok c → Clauses.ofFields other = .ok c) :
    read (.obj other) = .ok a := by
  cases hread with
  | query =>
      obtain ⟨hknown, htable, hprojection, hjoins, hold, hreduction⟩ :=
        Query.ofFields_eq_ok_iff.1 h
      refine Query.ofFields_eq_ok_iff.2 ⟨fun key hkey => ?_, ?_, ?_, ?_, hclauses _ hold, ?_⟩
      · rcases hagree.mem_keys hkey with hclause | hmem
        · rcases List.mem_cons.1 hclause with rfl | hclause
          · exact .inl (by decide)
          · exact .inr hclause
        · exact hknown key hmem
      · rwa [Query.firstOf?, ← hagree.findSome? (by decide)]
      · rwa [← hagree.columnsField?]
      · rwa [← hagree "JOIN" (by decide)]
      · rwa [← hagree "FUN" (by decide)]
  | update =>
      obtain ⟨hknown, htable, ⟨j, hj, hassignments⟩, hold⟩ := Update.ofJson_eq_ok_iff.1 h
      refine Update.ofJson_eq_ok_iff.2
        ⟨fun key hkey => ?_, ?_, ⟨j, ?_, hassignments⟩, hclauses _ hold⟩
      · rcases hagree.mem_keys hkey with hclause | hmem
        · exact List.subset_append_right ["TABLE", "FROM", "UPDATE", "SET", "VALUES"] _ hclause
        · exact hknown key hmem
      · rwa [← hagree.findSome? (by decide)]
      · rwa [← hagree.findSome? (by decide)]
  | deletion =>
      obtain ⟨hknown, htable, hold⟩ := Deletion.ofJson_eq_ok_iff.1 h
      refine Deletion.ofJson_eq_ok_iff.2 ⟨fun key hkey => ?_, ?_, hclauses _ hold⟩
      · rcases hagree.mem_keys hkey with hclause | hmem
        · exact List.subset_append_right ["TABLE", "FROM", "DELETE"] _ hclause
        · exact hknown key hmem
      · rwa [← hagree.findSome? (by decide)]

end ReadsClauses

/-! ## Clauses beside the conditions -/

section Beside

variable {fields inner : Entries Json} {key : String} {c : Clauses}

theorem AgreeApart.erase (hkey : key ∈ jsonKeys) (fields : Entries Json) :
    AgreeApart fields (Entries.erase fields key) := by
  intro k hk
  rw [Entries.get?_erase, if_neg]
  rintro rfl
  exact hk (List.mem_cons_of_mem _ hkey)

theorem AgreeApart.insert (hkey : key ∈ "WHERE" :: jsonKeys) (fields : Entries Json) (v : Json) :
    AgreeApart fields (Entries.insert fields key v) := by
  intro k hk
  rw [Entries.get?_insert, if_neg]
  rintro rfl
  exact hk hkey

theorem AgreeApart.trans {a b c : Entries Json} (hab : AgreeApart a b) (hbc : AgreeApart b c) :
    AgreeApart a c :=
  fun key hkey => (hab key hkey).trans (hbc key hkey)

/-- The value beside the conditions does not count if one among them does not give way. -/
theorem ofFields_of_agree (hwhere : Entries.get? fields "WHERE" = some (.obj inner))
    {other : Entries Json} (hother : ∀ k ≠ key, Entries.get? fields k = Entries.get? other k)
    (hkey : key ∈ jsonKeys) {v : Json} (hv : Entries.get? inner key = some v)
    (hway : givesWay key v = false) (h : ofFields fields = .ok c) : ofFields other = .ok c := by
  have hne : "WHERE" ≠ key := by
    rintro rfl
    exact absurd hkey (by decide)
  have hwhere' : Entries.get? other "WHERE" = some (.obj inner) := hother _ hne ▸ hwhere
  rw [ofFields_eq_ok_iff hwhere] at h
  rw [ofFields_eq_ok_iff hwhere']
  refine h.congr fun k _ => ?_
  rcases eq_or_ne k key with rfl | hk
  · rw [counting?_of_some hv hway, counting?_of_some hv hway]
  · rw [counting?, counting?, hother k hk]

/-- A clause beside the conditions counts as well if it is moved among them. -/
theorem ofFields_of_moved {before after : Entries Json}
    (hwhere : Entries.get? fields "WHERE" = some (.obj (before ++ after)))
    (habsent : key ∉ Entries.keys (before ++ after)) (hkey : key ∈ jsonKeys) {v : Json}
    (hv : Entries.get? fields key = some v) (h : ofFields fields = .ok c) :
    ofFields ((Entries.erase fields key).insert "WHERE" (.obj (before ++ (key, v) :: after))) =
      .ok c := by
  have hne : ∀ k ∈ jsonKeys, "WHERE" ≠ k := by decide
  have hnone := (Entries.get?_eq_none_iff (before ++ after) key).2 habsent
  have hbefore : Entries.get? before key = none := by
    rw [Entries.get?_append, Option.or_eq_none_iff] at hnone
    exact hnone.1
  have hconditions : (before ++ (key, v) :: after).filter (fun f => f.1 ∉ jsonKeys) =
      (before ++ after).filter fun f => f.1 ∉ jsonKeys := by
    simp [List.filter_append, hkey]
  have hinserted : Entries.get? ((Entries.erase fields key).insert "WHERE"
      (.obj (before ++ (key, v) :: after))) "WHERE" =
      some (.obj (before ++ (key, v) :: after)) := by
    rw [Entries.get?_insert, if_pos rfl]
  rw [ofFields_eq_ok_iff hwhere] at h
  rw [ofFields_eq_ok_iff hinserted, hconditions]
  refine h.congr fun k hk => ?_
  rcases eq_or_ne k key with rfl | hother
  · have hmoved : Entries.get? (before ++ (k, v) :: after) k = some v := by
      rw [Entries.get?_append, hbefore, Entries.get?_cons, if_pos rfl, Option.none_or]
    rw [counting?_of_none hnone, hv]
    cases hway : givesWay k v with
    | false => rw [counting?_of_some hmoved hway]
    | true =>
        rw [counting?_of_givesWay hmoved hway, Entries.get?_insert, if_neg (hne k hk),
          Entries.get?_erase, if_pos rfl, Option.none_or]
  · have hsame : Entries.get? (before ++ (key, v) :: after) k =
        Entries.get? (before ++ after) k := by
      rw [Entries.get?_append, Entries.get?_append, Entries.get?_cons, if_neg hother.symm]
    rw [counting?, counting?, hsame, Entries.get?_insert, if_neg (hne k hk), Entries.get?_erase,
      if_neg hother.symm]

/-- An empty array of columns to group by lets the value beside the conditions be read. -/
theorem ofFields_ne_ok_of_null (hwhere : Entries.get? fields "WHERE" = some (.obj inner))
    (hinner : Entries.get? inner "GROUP" = some (.arr [])) :
    ofFields (fields.insert "GROUP" .null) ≠ .ok c := by
  have hwhere' : Entries.get? (fields.insert "GROUP" .null) "WHERE" = some (.obj inner) := by
    rw [Entries.get?_insert, if_neg (by decide), hwhere]
  rw [ne_eq, ofFields_eq_ok_iff hwhere']
  intro h
  have hgroup := h.group
  rw [counting?_of_givesWay hinner (by decide), Entries.get?_insert, if_pos rfl] at hgroup
  simp [readGroups, readGroup, fault] at hgroup

end Beside

/-- Where a clause stands among the conditions, leaving out or changing the one beside them changes
nothing, unless it is an empty array of columns to group by; and where a clause stands beside the
conditions only, it may be moved to any place among them. -/
theorem ReadsClauses.clause_among_conditions_wins {α : Type} {read : Json → Result α}
    (hread : ReadsClauses read) {fields inner : Entries Json} {key : String} {a : α}
    (hok : read (.obj fields) = .ok a)
    (hwhere : Entries.get? fields "WHERE" = some (.obj inner)) (hkey : key ∈ jsonKeys) :
    (key ∈ Entries.keys inner →
        (read (.obj (Entries.erase fields key)) = .ok a ∧
            (∀ v, read (.obj (fields.insert key v)) = .ok a) ↔
          ¬ (key = "GROUP" ∧ Entries.get? inner key = some (.arr [])))) ∧
      (key ∉ Entries.keys inner → ∀ v before after, Entries.get? fields key = some v →
        inner = before ++ after →
        read (.obj ((Entries.erase fields key).insert "WHERE"
          (.obj (before ++ (key, v) :: after)))) = .ok a) := by
  refine ⟨fun hmem => ⟨?_, fun hnot => ?_⟩, ?_⟩
  · rintro ⟨-, hall⟩ ⟨rfl, hempty⟩
    obtain ⟨c, hc⟩ := hread.exists_ofFields (hall .null)
    exact ofFields_ne_ok_of_null hwhere hempty hc
  · obtain ⟨j, hj⟩ := Option.isSome_iff_exists.1 (Entries.get?_isSome_iff.2 hmem)
    have hway : givesWay key j = false := by
      rw [Bool.eq_false_iff, ne_eq, givesWay_iff]
      rintro ⟨rfl, rfl⟩
      exact hnot ⟨rfl, hj⟩
    refine ⟨?_, fun v => ?_⟩
    · refine hread.ok_of_agreeApart hok (.erase hkey fields) fun c hc => ?_
      refine ofFields_of_agree hwhere (fun k hk => ?_) hkey hj hway hc
      rw [Entries.get?_erase, if_neg hk.symm]
    · refine hread.ok_of_agreeApart hok (.insert (List.mem_cons_of_mem _ hkey) fields v)
        fun c hc => ?_
      refine ofFields_of_agree hwhere (fun k hk => ?_) hkey hj hway hc
      rw [Entries.get?_insert, if_neg hk.symm]
  · rintro habsent v before after hv rfl
    have hagree : AgreeApart fields ((Entries.erase fields key).insert "WHERE"
        (.obj (before ++ (key, v) :: after))) :=
      (AgreeApart.erase hkey fields).trans (.insert List.mem_cons_self _ _)
    exact hread.ok_of_agreeApart hok hagree fun c hc =>
      ofFields_of_moved hwhere habsent hkey hv hc

theorem ReadsClauses.clause_among_conditions_wins_at :
    let fields : Entries Json :=
      [("FROM", .str "t"), ("WHERE", .obj [("a", .null), ("ORDER", .str "b DESC")]),
        ("ORDER", .str "c"), ("GROUP", .str "d")]
    let d : Deletion := ⟨"t", ⟨[("a", .value .null)], none, ["d"], none,
      some [.column "b" (some .descending)], none⟩⟩
    Deletion.ofJson (.obj fields) = .ok d ∧
      (∀ v, Deletion.ofJson (.obj (fields.insert "ORDER" v)) = .ok d) ∧
      Deletion.ofJson (.obj ((Entries.erase fields "GROUP").insert "WHERE"
        (.obj [("a", .null), ("GROUP", .str "d"), ("ORDER", .str "b DESC")]))) = .ok d := by
  intro fields d
  have hok : Deletion.ofJson (.obj fields) = .ok d := by rfl
  have horder := clause_among_conditions_wins .deletion hok rfl
    (show "ORDER" ∈ jsonKeys by decide)
  have hgroup := clause_among_conditions_wins .deletion hok rfl
    (show "GROUP" ∈ jsonKeys by decide)
  refine ⟨hok, ((horder.1 (by decide)).2 fun h => absurd h.1 (by decide)).2, ?_⟩
  exact hgroup.2 (by decide) (.str "d") [("a", .null)] [("ORDER", .str "b DESC")] rfl rfl

/-- Columns to group by beside the conditions are read although an empty array stands among them. -/
theorem group_beside_empty_group :
    (Query.ofJson (.obj [("TABLE", .str "t"), ("WHERE", .obj [("GROUP", .arr [])]),
        ("GROUP", .str "a")])).map (fun q => q.clauses.group) = .ok ["a"] ∧
      (Query.ofJson (.obj [("TABLE", .str "t"), ("WHERE", .obj [("GROUP", .arr [])])])).map
        (fun q => q.clauses.group) = .ok [] :=
  ⟨rfl, rfl⟩

end KeyedQuery
