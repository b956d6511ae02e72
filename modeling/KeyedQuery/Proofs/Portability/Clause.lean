import KeyedQuery.Clause.Clauses
import KeyedQuery.Proofs.Result

/-!
# Clauses in several dialects

Two results agree if they are equal up to the dialect that an error names. The conditions of a
clause know of the settings nothing but the prefix of tables. Of the other clauses a full-text
search and an order by a list of values are constructs of MySQL, so they agree where both dialects
know them or neither does, and a limit is written in every dialect in its own way.
-/

namespace KeyedQuery

/-! ## Results that agree -/

/-- The error without the name of the dialect. -/
def Error.anyDialect : Error → Error
  | dialectMismatch _ feature => dialectMismatch "" feature
  | e => e

namespace Result

variable {α β : Type} {x y : Result α}

/-- Two results are equal up to the dialect that an error names. -/
def Agree (x y : Result α) : Prop :=
  x.mapError Error.anyDialect = y.mapError Error.anyDialect

theorem agree_of_eq (h : x = y) : Agree x y := congrArg _ h

theorem agree_lacks (d d' : Dialect) (f : Feature) :
    Agree (d.lacks f : Result α) (d'.lacks f) := rfl

theorem Agree.bind {f g : α → Result β} (h : Agree x y) (hfg : ∀ a, Agree (f a) (g a)) :
    Agree (x >>= f) (y >>= g) := by
  cases x with
  | error e =>
      cases y with
      | error e' => exact congrArg Except.error (Except.error.inj h)
      | ok b => exact nomatch h
  | ok a =>
      cases y with
      | error e' => exact nomatch h
      | ok b => exact Except.ok.inj h ▸ hfg a

theorem Agree.map {f g : α → β} (h : Agree x y) (hfg : ∀ a, x = .ok a → f a = g a) :
    Agree (x.map f) (y.map g) := by
  cases x with
  | error e =>
      cases y with
      | error e' => exact congrArg Except.error (Except.error.inj h)
      | ok b => exact nomatch h
  | ok a =>
      cases y with
      | error e' => exact nomatch h
      | ok b =>
          obtain rfl : a = b := Except.ok.inj h
          exact agree_of_eq (congrArg Except.ok (hfg a rfl))

theorem agree_mapM {f g : α → Result β} {xs : List α} (h : ∀ a ∈ xs, Agree (f a) (g a)) :
    Agree (xs.mapM f) (xs.mapM g) := by
  induction xs with
  | nil => exact agree_of_eq rfl
  | cons a xs ih =>
      rw [List.mapM_cons, List.mapM_cons]
      exact (h a List.mem_cons_self).bind fun _ =>
        (ih fun b hb => h b (List.mem_cons_of_mem _ hb)).bind fun _ => agree_of_eq rfl

end Result

open Result

variable {s s' : Settings}

/-! ## What depends on the prefix alone -/

namespace Settings

variable (hpre : s.tablePrefix = s'.tablePrefix)
include hpre

theorem table_congr : s.table = s'.table := by
  funext name
  rw [table, table, hpre]

theorem column_congr : s.column = s'.column := by
  funext name
  rw [column, column, hpre]

theorem checkedTable_congr : s.checkedTable = s'.checkedTable := by
  funext name
  rw [checkedTable, checkedTable, table_congr hpre]

end Settings

theorem LeafKey.toSql_congr (hpre : s.tablePrefix = s'.tablePrefix) (k : LeafKey) (v : Value) :
    k.toSql s v = k.toSql s' v := by
  rw [toSql, toSql, Settings.column_congr hpre]

mutual

theorem Node.toSql_congr (hpre : s.tablePrefix = s'.tablePrefix) (outer : Conjunctor)
    (key : String) : ∀ node : Node, node.toSql s outer key = node.toSql s' outer key
  | .value v => by
      simp only [Node.toSql, LeafKey.toSql_congr hpre]
  | .group entries => by
      simp only [Node.toSql, Conditions.compileEach_congr hpre _ entries]
  | .siblings groups => by
      simp only [Node.toSql, Conditions.compileGroups_congr hpre _ key groups]

theorem Conditions.compileEach_congr (hpre : s.tablePrefix = s'.tablePrefix)
    (outer : Conjunctor) : ∀ entries : List (String × Node),
      Conditions.compileEach s outer entries = Conditions.compileEach s' outer entries
  | [] => rfl
  | (key, node) :: rest => by
      rw [Conditions.compileEach, Conditions.compileEach, Node.toSql_congr hpre outer key node,
        Conditions.compileEach_congr hpre outer rest]

theorem Conditions.compileGroups_congr (hpre : s.tablePrefix = s'.tablePrefix)
    (inner : Conjunctor) (key : String) : ∀ groups : List (List (String × Node)),
      Conditions.compileGroups s inner key groups = Conditions.compileGroups s' inner key groups
  | [] => rfl
  | entries :: rest => by
      rw [Conditions.compileGroups, Conditions.compileGroups,
        Conditions.compileEach_congr hpre inner entries,
        Conditions.compileGroups_congr hpre inner key rest]

end

namespace Conditions

variable (hpre : s.tablePrefix = s'.tablePrefix)
include hpre

theorem toSql_congr : toSql s = toSql s' := by
  funext c m
  rw [toSql, toSql, compileEach_congr hpre]

theorem predicate_congr (m : Conditions) : m.predicate s = m.predicate s' := by
  have htop : ∀ c node, topGroup s c node = topGroup s' c node := by
    intro c node
    unfold topGroup
    rw [toSql_congr hpre]
  unfold predicate
  rw [toSql_congr hpre]
  simp only [htop]

end Conditions

/-! ## What depends on the dialect -/

theorem FullText.agree_toSql (hpre : s.tablePrefix = s'.tablePrefix)
    (hdialect : s.dialect.isMySql = s'.dialect.isMySql) (f : FullText) :
    Agree (f.toSql s) (f.toSql s') := by
  unfold toSql
  rw [hdialect, Settings.column_congr hpre]
  split
  · exact agree_lacks _ _ _
  · exact agree_of_eq rfl

/-- Whether the item is a list of values. -/
def OrderItem.listsValues : OrderItem → Bool
  | column _ _ => false
  | field _ _ => true

theorem OrderItem.agree_toSql (hpre : s.tablePrefix = s'.tablePrefix) {item : OrderItem}
    (hdialect : s.dialect.isMySql = s'.dialect.isMySql ∨ item.listsValues = false) :
    Agree (item.toSql s) (item.toSql s') := by
  have hcolumn := Settings.column_congr hpre
  cases item with
  | column name direction => cases direction <;> exact agree_of_eq (by rw [toSql, toSql, hcolumn])
  | field name values =>
      rw [toSql, toSql, hcolumn, hdialect.resolve_right (by simp [listsValues])]
      split
      · exact agree_lacks _ _ _
      · exact agree_of_eq rfl

/-- Clauses without constructs that only MySQL knows. -/
structure Clauses.IsCommon (c : Clauses) : Prop where
  fullText : c.fullText = none
  order : ∀ order ∈ c.order, ∀ item ∈ order, item.listsValues = false

namespace Clauses

variable {c : Clauses} (hpre : s.tablePrefix = s'.tablePrefix)
include hpre

theorem agree_filterSql (h : s.dialect.isMySql = s'.dialect.isMySql ∨ c.IsCommon) :
    Agree (c.filterSql s) (c.filterSql s') := by
  unfold filterSql
  rw [Conditions.predicate_congr hpre]
  refine (agree_of_eq rfl).bind fun filter => ?_
  cases hfull : c.fullText with
  | none => exact agree_of_eq rfl
  | some f =>
      have hdialect := h.resolve_right fun hcommon => by simp [hcommon.fullText] at hfull
      exact (f.agree_toSql hpre hdialect).bind fun _ => agree_of_eq rfl

theorem groupSql_congr : c.groupSql s = c.groupSql s' := by
  rw [groupSql, groupSql, Settings.column_congr hpre]

theorem havingSql_congr : c.havingSql s = c.havingSql s' := by
  unfold havingSql
  simp only [Conditions.predicate_congr hpre]

theorem agree_orderSql (h : s.dialect.isMySql = s'.dialect.isMySql ∨ c.IsCommon) :
    Agree (c.orderSql s) (c.orderSql s') := by
  unfold orderSql
  cases horder : c.order with
  | none => exact agree_of_eq rfl
  | some order =>
      refine Agree.map ?_ fun _ _ => rfl
      unfold Order.toSql
      split
      · exact agree_of_eq rfl
      · refine (agree_mapM fun item hitem => ?_).map fun _ _ => rfl
        exact OrderItem.agree_toSql hpre (h.imp_right fun hcommon =>
          hcommon.order order horder item hitem)

/-- Clauses without a limit agree in two dialects that are both MySQL or both not, and in any two if
they have no constructs of MySQL. -/
theorem agree_toSql (hlimit : c.limit = none)
    (h : s.dialect.isMySql = s'.dialect.isMySql ∨ c.IsCommon) :
    Agree (c.toSql s) (c.toSql s') := by
  refine (agree_filterSql hpre h).bind fun _ => ?_
  rw [havingSql_congr hpre, groupSql_congr hpre]
  refine (agree_of_eq rfl).bind fun _ => ?_
  refine (agree_orderSql hpre h).bind fun _ => ?_
  rw [limitSql, limitSql, hlimit]
  exact agree_of_eq rfl

end Clauses

end KeyedQuery
