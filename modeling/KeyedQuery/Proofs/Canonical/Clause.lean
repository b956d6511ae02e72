import KeyedQuery.Proofs.Canonical.Condition
import KeyedQuery.Proofs.Label
import KeyedQuery.Proofs.Reading.Clause

/-!
# Clauses in JSON

Every clause has a JSON form under its key, an order even two: an array of texts such as `age DESC`,
or an object from columns to directions and lists of values. The clauses that are set are read back
wherever they stand, among the conditions or beside them, as long as no condition stands under the
key of a clause.
-/

namespace KeyedQuery

/-! ## Orders -/

theorem Direction.read?_keyword (d : Direction) : read? d.keyword = some d := by
  cases d <;> decide

namespace OrderItem

variable {name : String}

def text (name : String) : Option Direction → String
  | none => name
  | some d => name ++ " " ++ d.keyword

theorem isColumnChar_of_isNameChar {c : Char} (h : Label.isNameChar c = true) :
    isColumnChar c = true :=
  Label.of_isNameChar (P := fun c => isColumnChar c = true) (by decide +kernel) h

theorem isColumnChar_of_mem_name (hname : Label.isName name = true) :
    ∀ c ∈ name.toList, isColumnChar c = true :=
  fun c hc => isColumnChar_of_isNameChar ((Label.isName_iff.1 hname).2 c hc)

theorem trimChars_text (hname : Label.isName name = true) (direction : Option Direction) :
    Text.trimChars (text name direction).toList = (text name direction).toList := by
  have hblank := Label.isBlank_of_mem_name (Label.isMarkedName_of_isName hname)
  cases direction with
  | none => exact Text.trimChars_of_not_blank hblank
  | some d =>
      refine Text.trimChars_eq_self (fun c hc => ?_) fun c hc => ?_
      · obtain ⟨first, rest, hcs⟩ := List.exists_cons_of_ne_nil (Label.isName_iff.1 hname).1
        have hfirst : first = c := by simpa [text, hcs] using hc
        exact hfirst ▸ hblank first (hcs ▸ List.mem_cons_self)
      · obtain rfl : 'C' = c := by cases d <;> simpa [text, Direction.keyword] using hc
        decide

theorem toList_text_some (name : String) (d : Direction) :
    (text name (some d)).toList = name.toList ++ ' ' :: d.keyword.toList := by
  simp [text]

theorem takeWhile_text (hname : Label.isName name = true) (direction : Option Direction) :
    (text name direction).toList.takeWhile isColumnChar = name.toList := by
  have hcolumn := isColumnChar_of_mem_name hname
  cases direction with
  | none => exact List.takeWhile_eq_self_iff.2 hcolumn
  | some d => rw [toList_text_some, Text.takeWhile_append_cons hcolumn (by decide)]

theorem readDirection?_text (hname : Label.isName name = true) (direction : Option Direction) :
    readDirection? ((text name direction).toList.dropWhile isColumnChar) = some direction := by
  have hcolumn := isColumnChar_of_mem_name hname
  cases direction with
  | none => rw [text, List.dropWhile_eq_nil_iff.2 hcolumn]; rfl
  | some d =>
      rw [toList_text_some, Text.dropWhile_append_cons hcolumn (by decide)]
      cases d <;> decide

theorem parse_text (hname : Label.isName name = true) (direction : Option Direction) :
    parse (text name direction) = .ok (column name direction) := by
  rw [parse, trimChars_text hname]
  simp only [takeWhile_text hname, readDirection?_text hname]
  rw [if_neg (Label.isName_iff.1 hname).1, String.ofList_toList]

/-- An item in an array. A list of values has no such form, and `null` is refused. -/
def toItem : OrderItem → Json
  | column name direction => .str (text name direction)
  | field _ _ => .null

/-- An item in an object. A column without a direction has no such form, and `null` is refused. -/
def toField : OrderItem → String × Json
  | column name none => (name, .null)
  | column name (some d) => (name, .str d.keyword)
  | field name values => (name, .arr (Value.toJsonAll values))

def isItem : OrderItem → Bool
  | column name _ => Label.isName name
  | field _ _ => false

def isField : OrderItem → Bool
  | column _ direction => direction.isSome
  | field _ values => Value.eachFinite values

theorem ofItem_toItem {item : OrderItem} (h : item.isItem = true) :
    ofItem item.toItem = .ok item := by
  cases item with
  | column name direction => exact parse_text h direction
  | field name values => exact absurd h (by simp [isItem])

theorem ofField_toField {item : OrderItem} (h : item.isField = true) :
    ofField item.toField.1 item.toField.2 = .ok item := by
  cases item with
  | column name direction =>
      obtain ⟨d, rfl⟩ := Option.isSome_iff_exists.1 h
      simp only [toField, ofField, Direction.read?_keyword]
  | field name values =>
      simp only [toField, ofField]
      rw [Value.ofJsonAll_toJsonAll h]
      rfl

theorem proper_toItem (item : OrderItem) : item.toItem.Proper := by
  cases item <;> trivial

theorem proper_toField (item : OrderItem) : item.toField.2.Proper := by
  cases item with
  | column name direction => cases direction <;> trivial
  | field name values => exact Value.proper_toJsonAll values

end OrderItem

namespace Order

def toJson (asObject : Bool) (order : Order) : Json :=
  if asObject then .obj (order.map OrderItem.toField) else .arr (order.map OrderItem.toItem)

/-- Whether an order is read back from an object or from an array. -/
def isRepresentable (asObject : Bool) (order : Order) : Bool :=
  if asObject then
    order.all OrderItem.isField && decide (order.map fun item => item.toField.1).Nodup
  else order.all OrderItem.isItem

variable {asObject : Bool} {order : Order}

theorem ofJson_toJson (h : order.isRepresentable asObject = true) :
    ofJson (order.toJson asObject) = .ok order := by
  cases asObject with
  | false => exact Result.mapM_map_eq_ok fun item hitem =>
      OrderItem.ofItem_toItem (List.all_eq_true.1 h item hitem)
  | true =>
      obtain ⟨hfields, -⟩ := Bool.and_eq_true_iff.1 h
      exact Result.mapM_map_eq_ok fun item hitem =>
        OrderItem.ofField_toField (List.all_eq_true.1 hfields item hitem)

theorem proper_toJson (h : order.isRepresentable asObject = true) :
    (order.toJson asObject).Proper := by
  cases asObject with
  | false => exact Json.proper_arr_map fun item _ => item.proper_toItem
  | true =>
      obtain ⟨-, hkeys⟩ := Bool.and_eq_true_iff.1 h
      exact Json.proper_obj_map (of_decide_eq_true hkeys) fun item _ => item.proper_toField

end Order

/-! ## Limits, searches and columns to group by -/

namespace Limit

def numberToJson (n : UInt64) : Json :=
  .num (.int n.toNat ⟨by omega, Int.lt_of_lt_of_le (Int.ofNat_lt.2 n.toNat_lt) (by decide)⟩)

def toJson : Limit → Json
  | count n => numberToJson n
  | range offset n => .arr [numberToJson offset, numberToJson n]

theorem readNumber?_numberToJson (n : UInt64) : readNumber? (numberToJson n) = some n := by
  rw [numberToJson, readNumber?, Json.Number.toUInt64?, if_pos (Int.natCast_nonneg _),
    Int.toNat_natCast, UInt64.ofNat_toNat]

theorem ofJson_toJson (limit : Limit) : ofJson limit.toJson = .ok limit := by
  cases limit with
  | count n => rw [ofJson, toJson, readNumber?_numberToJson]
  | range offset n =>
      have hrange : readRange? (.arr [numberToJson offset, numberToJson n]) =
          some (range offset n) := by
        rw [readRange?, readNumber?_numberToJson, readNumber?_numberToJson]
        rfl
      rw [toJson, ofJson, hrange]
      rfl

theorem proper_toJson (limit : Limit) : limit.toJson.Proper := by
  cases limit with
  | count n => trivial
  | range offset n => exact ⟨trivial, trivial, trivial⟩

end Limit

def Json.ofTexts (texts : List String) : Json := .arr (texts.map .str)

theorem Json.proper_ofTexts (texts : List String) : (ofTexts texts).Proper :=
  proper_arr_map fun _ _ => trivial

namespace FullText

def toJson (f : FullText) : Json :=
  .obj [("columns", .ofTexts f.columns), ("keyword", .str f.keyword)]

theorem ofJson_toJson (f : FullText) : ofJson f.toJson = .ok f := by
  have hread : (f.columns.map Json.str).mapM readColumn = .ok f.columns :=
    Result.mapM_map_eq_ok fun _ _ => rfl
  have hcolumns : (f.toJson.get? "columns").bind Json.asArray? =
      some (f.columns.map .str) := rfl
  have hkeyword : (f.toJson.get? "keyword").bind Json.asString? = some f.keyword := rfl
  rw [ofJson, hcolumns, hkeyword]
  simp only [hread]
  rfl

theorem proper_toJson (f : FullText) : f.toJson.Proper :=
  ⟨Json.proper_ofTexts f.columns, by simp, trivial, by simp, trivial⟩

end FullText

/-! ## All clauses -/

namespace Clauses

/-- How clauses are laid out in JSON: every layout gives one of the documents that the same clauses
are read from. -/
structure Layout where
  /-- Whether an order is an object instead of an array. -/
  orderAsObject : Bool
  /-- Whether the clause under a key stands among the conditions instead of beside them. -/
  among : String → Bool

variable {layout : Layout} {c : Clauses}

def parts (layout : Layout) (c : Clauses) : Entries (Option Json) :=
  [("GROUP", some (.ofTexts c.group)), ("ORDER", c.order.map (Order.toJson layout.orderAsObject)),
    ("HAVING", c.having.map fun conditions => .obj (Node.toFields conditions)),
    ("LIMIT", c.limit.map Limit.toJson), ("MATCH", c.fullText.map FullText.toJson)]

def toFields (layout : Layout) (c : Clauses) : Entries Json := Entries.present (c.parts layout)

def whereFields (layout : Layout) (c : Clauses) : Entries Json :=
  Node.toFields c.conditions ++ (c.toFields layout).filter fun f => layout.among f.1

/-- The clauses that stand beside the conditions. -/
def besideFields (layout : Layout) (c : Clauses) : Entries Json :=
  (c.toFields layout).filter fun f => !layout.among f.1

/-- Clauses that are told apart from all others by their JSON form. -/
structure Representable (layout : Layout) (c : Clauses) : Prop where
  conditions : Node.areRepresentable c.conditions = true
  /-- No condition stands under the key of a clause. -/
  keys : ∀ key ∈ Entries.keys c.conditions, key ∉ jsonKeys
  having : ∀ conditions ∈ c.having, Node.areRepresentable conditions = true
  order : ∀ order ∈ c.order, Order.isRepresentable layout.orderAsObject order = true

theorem keys_parts : Entries.keys (c.parts layout) = jsonKeys := rfl

theorem keys_toFields_sublist : (Entries.keys (c.toFields layout)).Sublist jsonKeys :=
  Entries.keys_present_sublist _

theorem keys_besideFields_sublist :
    (Entries.keys (c.besideFields layout)).Sublist jsonKeys :=
  (List.filter_sublist.map Prod.fst).trans keys_toFields_sublist

theorem get?_toFields (key : String) : Entries.get? (c.toFields layout) key =
    (Entries.get? (c.parts layout) key).join :=
  Entries.get?_present (by rw [keys_parts]; decide) key

theorem readOption_map {α : Type} {read : Json → Result α} {write : α → Json} {part : Option α}
    (h : ∀ a ∈ part, read (write a) = .ok a) : readOption read (part.map write) = .ok part := by
  cases part with
  | none => rfl
  | some a =>
      rw [Option.map_some, readOption, h a rfl]
      rfl

/-- Every clause is read back from its own form. -/
theorem readFrom_toFields (h : c.Representable layout) :
    ReadFrom (Node.toFields c.conditions) (Entries.get? (c.toFields layout)) c where
  conditions := Node.ofFields_toFields h.conditions
  group := by
    rw [get?_toFields]
    exact Result.mapM_map_eq_ok fun _ _ => rfl
  order := by
    rw [get?_toFields]
    exact readOption_map fun order horder => Order.ofJson_toJson (h.order order horder)
  having := by
    rw [get?_toFields]
    exact readOption_map fun conditions hconditions =>
      Node.ofFields_toFields (h.having conditions hconditions)
  limit := by
    rw [get?_toFields]
    exact readOption_map fun limit _ => limit.ofJson_toJson
  fullText := by
    rw [get?_toFields]
    exact readOption_map fun fullText _ => fullText.ofJson_toJson

theorem get?_whereFields (h : c.Representable layout) {key : String} (hkey : key ∈ jsonKeys) :
    Entries.get? (c.whereFields layout) key =
      if layout.among key then Entries.get? (c.toFields layout) key else none := by
  have hnone : Entries.get? (Node.toFields c.conditions) key = none := by
    rw [Entries.get?_eq_none_iff, Node.keys_toFields]
    exact fun hmem => h.keys key hmem hkey
  rw [whereFields, Entries.get?_append, hnone, Option.none_or, Entries.get?_filter]

theorem get?_besideFields (key : String) : Entries.get? (c.besideFields layout) key =
    if layout.among key then none else Entries.get? (c.toFields layout) key := by
  rw [besideFields, Entries.get?_filter fun k => !layout.among k]
  cases layout.among key <;> rfl

/-- A clause counts wherever it stands. -/
theorem counting?_whereFields (h : c.Representable layout) {fields : Entries Json}
    (hbeside : ∀ key ∈ jsonKeys,
      Entries.get? fields key = Entries.get? (c.besideFields layout) key)
    {key : String} (hkey : key ∈ jsonKeys) :
    counting? (c.whereFields layout) fields key = Entries.get? (c.toFields layout) key := by
  have hinner := get?_whereFields h hkey
  have hfields := (hbeside key hkey).trans (get?_besideFields key)
  cases hamong : layout.among key with
  | false =>
      rw [hamong, if_neg (by decide)] at hinner hfields
      rw [counting?_of_none hinner, hfields]
  | true =>
      rw [hamong, if_pos rfl] at hinner hfields
      cases hvalue : Entries.get? (c.toFields layout) key with
      | none => rw [counting?_of_none (hinner.trans hvalue), hfields]
      | some j =>
          cases hway : givesWay key j with
          | false => exact counting?_of_some (hinner.trans hvalue) hway
          | true => rw [counting?_of_givesWay (hinner.trans hvalue) hway, hfields, Option.none_or]

theorem filter_whereFields (h : c.Representable layout) :
    ((c.whereFields layout).filter fun f => f.1 ∉ jsonKeys) = Node.toFields c.conditions := by
  rw [whereFields, List.filter_append, List.filter_eq_self.2, List.filter_eq_nil_iff.2,
    List.append_nil]
  · intro f hf
    have hkey := keys_toFields_sublist.mem (List.mem_map_of_mem (List.mem_of_mem_filter hf))
    simpa using hkey
  · intro f hf
    have hkey : f.1 ∈ Entries.keys c.conditions := by
      rw [← Node.keys_toFields]
      exact List.mem_map_of_mem hf
    simpa using h.keys f.1 hkey

theorem proper_of_mem_toFields (h : c.Representable layout) {f : String × Json}
    (hf : f ∈ c.toFields layout) : f.2.Proper := by
  obtain ⟨key, j⟩ := f
  have hpart := Entries.mem_present.1 hf
  simp only [parts, List.mem_cons, Prod.mk.injEq, List.not_mem_nil, or_false, Option.some.injEq,
    eq_comm (a := some j), Option.map_eq_some_iff] at hpart
  rcases hpart with ⟨-, rfl⟩ | ⟨-, order, horder, rfl⟩ | ⟨-, conditions, hconditions, rfl⟩ |
    ⟨-, limit, -, rfl⟩ | ⟨-, fullText, -, rfl⟩
  · exact Json.proper_ofTexts c.group
  · exact Order.proper_toJson (h.order order horder)
  · exact Node.proper_toFields (h.having conditions hconditions)
  · exact limit.proper_toJson
  · exact fullText.proper_toJson

theorem proper_whereFields (h : c.Representable layout) :
    (Json.obj (c.whereFields layout)).Proper := by
  obtain ⟨hnodup, hproper⟩ := Json.proper_obj_iff.1 (Node.proper_toFields h.conditions)
  have hclauses : (Entries.keys ((c.toFields layout).filter fun f => layout.among f.1)).Sublist
      jsonKeys := (List.filter_sublist.map Prod.fst).trans keys_toFields_sublist
  refine Json.proper_obj_iff.2 ⟨?_, fun f hf => ?_⟩
  · rw [whereFields, Entries.keys, List.map_append]
    refine List.nodup_append.2 ⟨hnodup, hclauses.nodup (by decide), ?_⟩
    rintro key hcondition _ hclause rfl
    rw [← Entries.keys, Node.keys_toFields] at hcondition
    exact h.keys key hcondition (hclauses.mem hclause)
  · rw [whereFields, List.mem_append] at hf
    exact hf.elim (hproper f) fun hf => proper_of_mem_toFields h (List.mem_of_mem_filter hf)

/-- Clauses are read back from an object in which they are laid out. -/
theorem ofFields_of_laidOut (h : c.Representable layout) {fields : Entries Json}
    (hwhere : Entries.get? fields "WHERE" = some (.obj (c.whereFields layout)))
    (hbeside : ∀ key ∈ jsonKeys,
      Entries.get? fields key = Entries.get? (c.besideFields layout) key) :
    ofFields fields = .ok c := by
  rw [ofFields_eq_ok_iff hwhere, filter_whereFields h]
  exact (readFrom_toFields h).congr fun key hkey => (counting?_whereFields h hbeside hkey).symm

end Clauses

end KeyedQuery
