import KeyedQuery.Proofs.Canonical.Clause
import KeyedQuery.Proofs.Reading.Description

/-!
# Queries in JSON

The JSON form of a query, and that a query is read back from it. Names and labels have to be made of
the characters that are understood in `name(label)`, and keys that become keys of one object have to
be distinct; everything else may be arbitrary. The clauses may stand among the conditions or beside
them, each as one likes, and an order may have either of its forms.
-/

namespace KeyedQuery

/-! ## Columns -/

theorem Aggregate.read?_name (a : Aggregate) : read? a.name = some a := by
  cases a <;> decide

namespace Column

variable {c : Column}

def text (c : Column) : String := Label.text c.name c.label

def toJson (c : Column) : Json :=
  match c.aggregate with
  | none => .str c.text
  | some a => .obj [(a.name, .str c.text)]

/-- Whether the name and the label of a column are told apart in its text. -/
def isRepresentable (c : Column) : Bool :=
  Label.isMarkedName c.name && c.label.all Label.isLabel

theorem parse_text (h : c.isRepresentable = true) :
    parse c.text = { name := c.name, label := c.label } := by
  obtain ⟨name, label, aggregate⟩ := c
  obtain ⟨hname, hlabel⟩ := Bool.and_eq_true_iff.1 h
  have hlabel' : ∀ l ∈ label, Label.isLabel l = true := (Option.all_eq_true _ _).1 hlabel
  rw [parse, text, Label.split?_text hname hlabel', Label.trim_text hname hlabel']
  cases label <;> rfl

theorem ofItem_toJson (h : c.isRepresentable = true) : Projection.ofItem c.toJson = .ok [c] := by
  have hparse := parse_text h
  obtain ⟨name, label, aggregate⟩ := c
  cases aggregate with
  | none =>
      rw [toJson, Projection.ofItem, hparse]
  | some a =>
      have hfield : ofField a.name (.str (text ⟨name, label, some a⟩)) =
          .ok ⟨name, label, some a⟩ := by
        simp only [ofField, Aggregate.read?_name, hparse]
      simp only [toJson, Projection.ofItem, List.mapM_cons, List.mapM_nil, hfield]
      rfl

theorem proper_toJson (c : Column) : c.toJson.Proper := by
  obtain ⟨name, label, aggregate⟩ := c
  cases aggregate with
  | none => trivial
  | some a => exact ⟨trivial, List.not_mem_nil, trivial⟩

end Column

namespace Projection

variable {p : Projection}

def toJson : Projection → Json
  | all => .str "*"
  | columns list => .arr (list.map Column.toJson)

def isRepresentable : Projection → Bool
  | all => true
  | columns list => list.all Column.isRepresentable

theorem ofJson_toJson (h : p.isRepresentable = true) : ofJson p.toJson = .ok p := by
  cases p with
  | all => rfl
  | columns list =>
      have hitems : (list.map Column.toJson).mapM ofItem = .ok (list.map fun c => [c]) :=
        Result.mapM_map_eq_ok_map fun c hc => Column.ofItem_toJson (List.all_eq_true.1 h c hc)
      have hflatten : (list.map fun c => [c]).flatten = list := by
        rw [← List.flatMap_def, List.flatMap_singleton']
      rw [toJson, ofJson, hitems, Except.map, hflatten]

theorem proper_toJson (p : Projection) : p.toJson.Proper := by
  cases p with
  | all => trivial
  | columns list => exact Json.proper_arr_map fun c _ => c.proper_toJson

end Projection

/-! ## Joins -/

namespace Relation

variable {r : Relation}

def toJson : Relation → Json
  | shared columns => .ofTexts columns
  | pairs columns => .obj (columns.map fun pair => (pair.1, .str pair.2))

def isRepresentable : Relation → Bool
  | shared _ => true
  | pairs columns => decide (columns.map Prod.fst).Nodup

theorem ofJson_toJson (r : Relation) : ofJson r.toJson = .ok r := by
  cases r with
  | shared columns =>
      have hread : (columns.map Json.str).mapM readColumn = .ok columns :=
        Result.mapM_map_eq_ok fun _ _ => rfl
      rw [toJson, Json.ofTexts, ofJson, hread]
      rfl
  | pairs columns =>
      rw [toJson, ofJson, Result.do_eq_ok_iff]
      exact ⟨columns, Result.mapM_map_eq_ok fun _ _ => rfl, rfl⟩

theorem proper_toJson (h : r.isRepresentable = true) : r.toJson.Proper := by
  cases r with
  | shared columns => exact Json.proper_ofTexts columns
  | pairs columns => exact Json.proper_obj_map (of_decide_eq_true h) fun _ _ => trivial

end Relation

theorem JoinKind.eq_of_mem_sign {kind : JoinKind} {c : Char} (h : c ∈ kind.sign.toList) :
    c = '<' ∨ c = '>' := by
  cases kind with
  | left => exact .inr (by simpa [sign] using h)
  | right => exact .inl (by simpa [sign] using h)
  | full => simpa [sign] using h
  | inner => simpa [sign, or_comm] using h

namespace Join

variable {j : Join}

def tableText (j : Join) : String := Label.text j.table j.label

def key (j : Join) : String := "[" ++ j.kind.sign ++ "]" ++ j.tableText

def toField (j : Join) : String × Json := (j.key, j.relation.toJson)

def isRepresentable (j : Join) : Bool :=
  Label.isName j.table && j.label.all Label.isLabel && j.relation.isRepresentable

theorem isRepresentable_iff : j.isRepresentable = true ↔ Label.isName j.table = true ∧
    (∀ l ∈ j.label, Label.isLabel l = true) ∧ j.relation.isRepresentable = true := by
  simp only [isRepresentable, Bool.and_eq_true, Option.all_eq_true, Option.mem_def, and_assoc]

theorem ofTable_text {kind : JoinKind} {table : String} {label? : Option String}
    (hname : Label.isName table = true) (hlabel : ∀ l ∈ label?, Label.isLabel l = true)
    (relation : Relation) :
    ofTable kind (Label.text table label?) relation = ⟨kind, table, label?, relation⟩ := by
  have hmarked := Label.isMarkedName_of_isName hname
  rw [ofTable, Label.split?_text hmarked hlabel, Label.trim_text hmarked hlabel]
  cases label? <;> rfl

theorem isBlank_of_mem_key (h : j.isRepresentable = true) :
    ∀ c ∈ j.key.toList, Text.isBlank c = false := by
  obtain ⟨hname, hlabel, -⟩ := isRepresentable_iff.1 h
  have htext := Label.isBlank_of_mem_text (Label.isMarkedName_of_isName hname) hlabel
  intro c hc
  simp only [key, String.toList_append, List.mem_append] at hc
  rcases hc with ((hc | hc) | hc) | hc
  · obtain rfl : c = '[' := by simpa using hc
    decide
  · obtain rfl | rfl := JoinKind.eq_of_mem_sign hc <;> decide
  · obtain rfl : c = ']' := by simpa using hc
    decide
  · exact htext c hc

theorem splitKey?_key (h : j.isRepresentable = true) :
    splitKey? j.key = some (j.kind.sign, j.tableText) := by
  have hsign : ∀ c ∈ j.kind.sign.toList, decide (c ≠ ']') = true := by
    intro c hc
    obtain rfl | rfl := JoinKind.eq_of_mem_sign hc <;> decide
  have hkey : j.key.toList = '[' :: (j.kind.sign.toList ++ ']' :: j.tableText.toList) := by
    simp [key]
  rw [splitKey?, Text.trimChars_of_not_blank (isBlank_of_mem_key h), hkey]
  simp only [Text.takeWhile_append_cons hsign (c := ']') (by decide),
    Text.dropWhile_append_cons hsign (c := ']') (by decide), String.ofList_toList]

theorem ofField_toField (h : j.isRepresentable = true) :
    ofField j.toField.1 j.toField.2 = .ok j := by
  obtain ⟨hname, hlabel, -⟩ := isRepresentable_iff.1 h
  have hne : Text.trim j.tableText ≠ "" := by
    rw [tableText, Label.trim_text (Label.isMarkedName_of_isName hname) hlabel]
    exact Label.text_ne_empty hname
  have hkey : ofKey? j.key j.relation = some j := by
    rw [ofKey?, splitKey?_key h]
    simp only [Option.bind_eq_bind, Option.bind_some, JoinKind.ofSign?_sign, if_neg hne]
    rw [tableText, ofTable_text hname hlabel]
  rw [toField, ofField, Relation.ofJson_toJson, Result.do_eq_ok_iff]
  exact ⟨j.relation, rfl, by rw [ofKey, hkey]⟩

theorem proper_toField (h : j.isRepresentable = true) : j.toField.2.Proper :=
  Relation.proper_toJson (isRepresentable_iff.1 h).2.2

end Join

/-! ## Queries -/

def Reduction.toJson : Reduction → Json
  | aggregate a => .str a.name
  | existence => .str "EXISTS"

theorem Reduction.ofJson_toJson (r : Reduction) : ofJson r.toJson = .ok r := by
  cases r with
  | existence => rfl
  | aggregate a => cases a <;> rfl

theorem Reduction.proper_toJson (r : Reduction) : r.toJson.Proper := by
  cases r <;> trivial

namespace Query

variable {layout : Clauses.Layout} {q : Query}

def leadingFields (layout : Clauses.Layout) (q : Query) : Entries Json :=
  [("TABLE", .str q.table), ("COLUMNS", q.projection.toJson),
    ("JOIN", .obj (q.joins.map Join.toField)), ("WHERE", .obj (q.clauses.whereFields layout))]

def reductionFields (q : Query) : Entries Json :=
  Entries.present [("FUN", q.reduction.map Reduction.toJson)]

def toFields (layout : Clauses.Layout) (q : Query) : Entries Json :=
  q.leadingFields layout ++ (q.clauses.besideFields layout ++ q.reductionFields)

def toJson (layout : Clauses.Layout) (q : Query) : Json := .obj (q.toFields layout)

/-- Queries that are told apart from all others by their JSON form. -/
structure Representable (layout : Clauses.Layout) (q : Query) : Prop where
  projection : q.projection.isRepresentable = true
  joins : ∀ j ∈ q.joins, j.isRepresentable = true
  keys : (q.joins.map Join.key).Nodup
  clauses : q.clauses.Representable layout

theorem readJoins_toField (h : ∀ j ∈ q.joins, j.isRepresentable = true) :
    readJoins (.obj (q.joins.map Join.toField)) = .ok q.joins :=
  Result.mapM_map_eq_ok fun j hj => Join.ofField_toField (h j hj)

theorem keys_leadingFields : Entries.keys (q.leadingFields layout) =
    ["TABLE", "COLUMNS", "JOIN", "WHERE"] := rfl

theorem keys_toFields_sublist : (Entries.keys (q.toFields layout)).Sublist
    (["TABLE", "COLUMNS", "JOIN", "WHERE"] ++ (Clauses.jsonKeys ++ ["FUN"])) := by
  have hreduction : (Entries.keys q.reductionFields).Sublist ["FUN"] :=
    Entries.keys_present_sublist _
  rw [toFields, Entries.keys, List.map_append, List.map_append]
  exact (List.Sublist.refl _).append (Clauses.keys_besideFields_sublist.append hreduction)

theorem get?_reductionFields (key : String) : Entries.get? q.reductionFields key =
    if "FUN" = key then q.reduction.map Reduction.toJson else none := by
  rw [reductionFields, Entries.get?_present (by simp), Entries.get?_cons]
  split <;> rfl

theorem get?_toFields {key : String} (hkey : key ∉ ["TABLE", "COLUMNS", "JOIN", "WHERE"]) :
    Entries.get? (q.toFields layout) key =
      (Entries.get? (q.clauses.besideFields layout) key).or
        (Entries.get? q.reductionFields key) := by
  have hleading : Entries.get? (q.leadingFields layout) key = none := by
    rwa [Entries.get?_eq_none_iff, keys_leadingFields]
  rw [toFields, Entries.get?_append, Entries.get?_append, hleading, Option.none_or]

theorem get?_toFields_of_mem {key : String} (hkey : key ∈ Clauses.jsonKeys) :
    Entries.get? (q.toFields layout) key = Entries.get? (q.clauses.besideFields layout) key := by
  have hapart : ∀ k ∈ Clauses.jsonKeys,
      k ∉ ["TABLE", "COLUMNS", "JOIN", "WHERE"] ∧ "FUN" ≠ k := by decide
  obtain ⟨hleading, hreduction⟩ := hapart key hkey
  rw [get?_toFields hleading, get?_reductionFields, if_neg hreduction, Option.or_none]

theorem get?_toFields_reduction : Entries.get? (q.toFields layout) "FUN" =
    q.reduction.map Reduction.toJson := by
  have hbeside : Entries.get? (q.clauses.besideFields layout) "FUN" = none := by
    rw [Entries.get?_eq_none_iff]
    exact fun hmem => absurd (Clauses.keys_besideFields_sublist.mem hmem) (by decide)
  rw [get?_toFields (by decide), hbeside, get?_reductionFields, if_pos rfl, Option.none_or]

theorem readPart_reduction :
    readPart (q.reduction.map Reduction.toJson) none (fun j => (Reduction.ofJson j).map some) =
      .ok q.reduction := by
  cases q.reduction with
  | none => rfl
  | some r =>
      rw [Option.map_some, readPart, r.ofJson_toJson]
      rfl

theorem proper_of_mem_leadingFields (h : q.Representable layout) {f : String × Json}
    (hf : f ∈ q.leadingFields layout) : f.2.Proper := by
  simp only [leadingFields, List.mem_cons, List.not_mem_nil, or_false] at hf
  rcases hf with rfl | rfl | rfl | rfl
  · trivial
  · exact q.projection.proper_toJson
  · exact Json.proper_obj_map h.keys fun j hj => Join.proper_toField (h.joins j hj)
  · exact Clauses.proper_whereFields h.clauses

theorem proper_toJson (h : q.Representable layout) : (q.toJson layout).Proper := by
  rw [toJson, Json.proper_obj_iff]
  refine ⟨keys_toFields_sublist.nodup (by decide), fun f hf => ?_⟩
  rw [toFields, List.mem_append, List.mem_append] at hf
  rcases hf with hf | hf | hf
  · exact proper_of_mem_leadingFields h hf
  · exact Clauses.proper_of_mem_toFields h.clauses (List.mem_of_mem_filter hf)
  · obtain ⟨key, j⟩ := f
    have hpart := Entries.mem_present.1 hf
    simp only [List.mem_singleton, Prod.mk.injEq, eq_comm (a := some j),
      Option.map_eq_some_iff] at hpart
    obtain ⟨-, r, -, rfl⟩ := hpart
    exact r.proper_toJson

/-- Every representable query is read back from its JSON form, however its clauses are laid out in
it, and in that form the keys of every object are distinct. -/
theorem ofJson_toJson_of_representable (h : q.Representable layout) :
    ofJson (q.toJson layout) = .ok q ∧ (q.toJson layout).Proper := by
  refine ⟨?_, proper_toJson h⟩
  rw [toJson, ofJson, ofFields_eq_ok_iff]
  refine ⟨fun key hkey => ?_, rfl, Projection.ofJson_toJson h.projection,
    readJoins_toField h.joins, ?_, ?_⟩
  · have hknown : ∀ k ∈ ["TABLE", "COLUMNS", "JOIN", "WHERE"] ++ (Clauses.jsonKeys ++ ["FUN"]),
        k ∈ jsonKeys ∨ k ∈ Clauses.jsonKeys := by decide
    exact hknown key (keys_toFields_sublist.mem hkey)
  · exact Clauses.ofFields_of_laidOut h.clauses rfl fun key hkey => get?_toFields_of_mem hkey
  · rw [get?_toFields_reduction, readPart_reduction]

theorem ofJson_toJson_of_representable_at :
    let q : Query :=
      { table := "orders(o)"
        projection := .columns [⟨"o.id", none, none⟩, ⟨"#price", some "total", some .sum⟩]
        joins := [⟨.inner, "customers", some "c", .pairs [("customer_id", "id")]⟩]
        clauses :=
          { conditions := [("o.state", .value (.list [.text "new", .null])),
              ("OR", .siblings [[("c.vip", .value (.bool true))],
                [("o.total[>=]", .value (.int 100))]])]
            group := ["o.id"]
            order := some [.column "o.total" (some .descending), .field "c.rank" [.text "gold"]]
            limit := some (.range 10 5) }
        reduction := some .existence }
    ofJson (.obj [("TABLE", .str "orders(o)"),
      ("COLUMNS", .arr [.str "o.id", .obj [("SUM", .str "#price(total)")]]),
      ("JOIN", .obj [("[><]customers(c)", .obj [("customer_id", .str "id")])]),
      ("WHERE", .obj [("o.state", .arr [.str "new", .null]),
        ("OR", .arr [.obj [("c.vip", .bool true)],
          .obj [("o.total[>=]", .num (.int 100 (by decide)))]]),
        ("ORDER", .obj [("o.total", .str "DESC"), ("c.rank", .arr [.str "gold"])])]),
      ("GROUP", .arr [.str "o.id"]),
      ("LIMIT", .arr [.num (.int 10 (by decide)), .num (.int 5 (by decide))]),
      ("FUN", .str "EXISTS")]) = .ok q := by
  intro q
  have h : q.Representable ⟨true, fun key => key == "ORDER"⟩ :=
    { projection := by decide
      joins := by decide
      keys := by decide
      clauses :=
        { conditions := by decide
          keys := by decide
          having := nofun
          order := fun order horder => by cases horder; decide } }
  exact (ofJson_toJson_of_representable h).1

end Query

end KeyedQuery
