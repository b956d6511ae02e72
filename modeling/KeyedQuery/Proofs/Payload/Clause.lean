import KeyedQuery.Clause.Clauses
import KeyedQuery.Proofs.Payload.Condition

/-!
# Payloads of clauses

Besides the payloads of the conditions, clauses have two of their own: the keyword of a full-text
search, and the texts in the lists of values that rows are ordered by.
-/

namespace KeyedQuery

def FullText.mask (f : FullText) : FullText := { f with keyword := "" }

theorem FullText.map_blank_toSql (s : Settings) (f : FullText) :
    (f.mask.toSql s).map Fragment.blank = (f.toSql s).map Fragment.blank := by
  unfold toSql mask
  split
  · rfl
  split
  · rfl
  · simp [Except.map, Piece.blank]

def OrderItem.mask : OrderItem → OrderItem
  | column name direction => column name direction
  | field name values => field name (values.map Value.mask)

theorem OrderItem.map_blank_toSql (s : Settings) (item : OrderItem) :
    (item.mask.toSql s).map Fragment.blank = (item.toSql s).map Fragment.blank := by
  cases item with
  | column name direction => rfl
  | field name values =>
      have hlist : (values.map Value.mask).any Value.isList = values.any Value.isList := by
        simp [Function.comp_def]
      simp only [mask, toSql, List.isEmpty_map, hlist]
      split
      · rfl
      split
      · rfl
      refine Result.map_do_congr (Literal.map_blank_ofScalars values) fun f g h => ?_
      refine congrArg Except.ok ?_
      simp only [List.cons_append, Fragment.blank_cons, Fragment.blank_append, h]

def Order.mask (order : Order) : Order := order.map OrderItem.mask

theorem Order.map_blank_toSql (s : Settings) (order : Order) :
    (Order.toSql s (Order.mask order)).map Fragment.blank =
      (Order.toSql s order).map Fragment.blank := by
  unfold toSql mask
  rw [List.isEmpty_map]
  split
  · rfl
  · refine Result.map_map_congr
      (Result.map_mapM_congr fun item _ => OrderItem.map_blank_toSql s item) fun fs gs h => ?_
    rw [Fragment.blank_join, Fragment.blank_join, h]

namespace Clauses

def mask (c : Clauses) : Clauses :=
  { c with
    conditions := c.conditions.mask
    fullText := c.fullText.map FullText.mask
    having := c.having.map Conditions.mask
    order := c.order.map Order.mask }

variable (s : Settings) (c : Clauses)

theorem blank_clauseSql (keyword : String) (f : Fragment) :
    (clauseSql keyword f).blank = clauseSql keyword f.blank := by
  unfold clauseSql
  rw [Fragment.isEmpty_blank]
  split <;> rfl

theorem map_blank_filterSql :
    (c.mask.filterSql s).map Fragment.blank = (c.filterSql s).map Fragment.blank := by
  refine Result.map_do_congr (Conditions.map_blank_predicate s c.conditions) fun f g h => ?_
  have hempty : f.isEmpty = g.isEmpty := by
    rw [← Fragment.isEmpty_blank, h, Fragment.isEmpty_blank]
  cases hfull : c.fullText with
  | none =>
      simp only [mask, hfull, Option.map_none]
      exact congrArg Except.ok h
  | some search =>
      simp only [mask, hfull, Option.map_some]
      refine Result.map_do_congr (FullText.map_blank_toSql s search) fun f' g' h' => ?_
      refine congrArg Except.ok ?_
      rw [hempty]
      split
      · exact h'
      · rw [Fragment.blank_append, Fragment.blank_append, Fragment.blank_cons, Fragment.blank_cons,
          h, h']

theorem map_blank_havingSql :
    (c.mask.havingSql s).map Fragment.blank = (c.havingSql s).map Fragment.blank := by
  unfold havingSql
  cases hhaving : c.having with
  | none => simp only [mask, hhaving, Option.map_none]
  | some conditions =>
      simp only [mask, hhaving, Option.map_some]
      refine Result.map_map_congr (Conditions.map_blank_predicate s conditions) fun f g h => ?_
      rw [blank_clauseSql, blank_clauseSql, h]

theorem map_blank_orderSql :
    (c.mask.orderSql s).map Fragment.blank = (c.orderSql s).map Fragment.blank := by
  unfold orderSql
  cases horder : c.order with
  | none => simp only [mask, horder, Option.map_none]
  | some order =>
      simp only [mask, horder, Option.map_some]
      refine Result.map_map_congr (Order.map_blank_toSql s order) fun f g h => ?_
      rw [Fragment.blank_cons, Fragment.blank_cons, h]

theorem limitSql_mask : c.mask.limitSql s = c.limitSql s := by
  simp only [limitSql, mask, Option.isSome_map]

/-- The payloads of clauses change nothing but the content of string literals. -/
theorem map_blank_toSql :
    (c.mask.toSql s).map Fragment.blank = (c.toSql s).map Fragment.blank := by
  unfold toSql
  rw [limitSql_mask]
  refine Result.map_do_congr (map_blank_filterSql s c) fun filter filter' hfilter => ?_
  refine Result.map_do_congr (map_blank_havingSql s c) fun having having' hhaving => ?_
  refine Result.map_do_congr (map_blank_orderSql s c) fun order order' horder => ?_
  refine Result.map_do_congr_right fun limit => congrArg Except.ok ?_
  have hgroup : c.mask.groupSql s = c.groupSql s := rfl
  simp only [Fragment.blank_append, blank_clauseSql, hgroup, hfilter, hhaving, horder]

end Clauses

end KeyedQuery
