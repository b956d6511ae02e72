import KeyedQuery.Proofs.Clause.FullText

/-!
# Soundness of clauses

The text of clauses falls back into its pieces if no name that they hold has a mark of quotation in
it and the calls that raw keys let through are plain. The columns of conditions need not be looked
at: the keys of conditions admit no mark in a column.
-/

namespace KeyedQuery

open Sql

variable {s : Settings} {f : Fragment}

/-! ## Order and limit -/

def OrderItem.name : OrderItem → String
  | .column name _ => name
  | .field name _ => name

theorem OrderItem.sound_toSql {item : OrderItem} (hpre : s.quoteStyle.AbsentFrom s.tablePrefix)
    (hname : s.quoteStyle.AbsentFrom item.name) (h : item.toSql s = .ok f) :
    Fragment.Sound s f := by
  have hcolumn := s.sound_column hname hpre
  cases item with
  | column name direction =>
      cases direction with
      | none =>
          rw [← Except.ok.inj h]
          exact hcolumn
      | some d =>
          rw [← Except.ok.inj h]
          refine hcolumn.append_code ?_ (.nil s)
          cases d <;> decide
  | field name values =>
      rw [toSql] at h
      split at h
      · simp [Dialect.lacks] at h
      split at h
      · simp [fault] at h
      simp only [Result.do_eq_ok_iff, Result.pure_eq_ok_iff] at h
      obtain ⟨values, hvalues, rfl⟩ := h
      have hvalues := (Literal.denotes_ofScalars hvalues).1 s
      have hfield : isCode "FIELD(" = true := by decide
      have hopen := hcolumn.cons_code hfield
      exact (hopen.append_code (by decide) hvalues).append_code (by decide) (.nil s)

theorem Order.sound_toSql {order : Order} (hpre : s.quoteStyle.AbsentFrom s.tablePrefix)
    (hnames : ∀ item ∈ order, s.quoteStyle.AbsentFrom item.name) (h : Order.toSql s order = .ok f) :
    Fragment.Sound s f := by
  unfold toSql at h
  split at h
  · simp [fault] at h
  · obtain ⟨items, hitems, rfl⟩ := Result.map_eq_ok_iff.1 h
    refine Fragment.Sound.join (by decide) ?_
    exact Result.forall_mem_of_mapM hitems fun item hitem f hf =>
      OrderItem.sound_toSql hpre (hnames item hitem) hf

namespace Limit

theorem isNumeral_digits (n : UInt64) : isNumeral (digits n).toList = true := by
  have hdigits : Numeral.ofInt n.toNat = digits n := by
    simp [Numeral.ofInt, digits]
  exact hdigits ▸ isNumeral_ofInt n.toNat

theorem isCode_digits (n : UInt64) : isCode (digits n) = true :=
  isCode_of_isNumeral (isNumeral_digits n)

/-- A limit is code and nothing else. -/
theorem isCode_toSql {d : Dialect} {ordered : Bool} {limit : Limit} {text : String}
    (h : limit.toSql d ordered = .ok text) : isCode text = true := by
  have hone : ∀ {before : String} (n : UInt64), isCode before = true →
      isCode (before ++ digits n) = true :=
    fun n hbefore => isCode_append hbefore (isCode_digits n)
  have htwo : ∀ {before between : String} (m n : UInt64), isCode before = true →
      isCode between = true → isCode (before ++ digits m ++ between ++ digits n) = true :=
    fun m n hbefore hbetween => hone n (isCode_append (hone m hbefore) hbetween)
  cases d with
  | mysql | sqlite =>
      cases limit with
      | count n => exact Except.ok.inj h ▸ hone n (by decide)
      | range o n => exact Except.ok.inj h ▸ htwo o n (by decide) (by decide)
  | postgres =>
      cases limit with
      | count n => exact Except.ok.inj h ▸ hone n (by decide)
      | range o n => exact Except.ok.inj h ▸ htwo o n (by decide) (by decide)
  | oracle =>
      cases limit with
      | count n => exact Except.ok.inj h ▸ isCode_append (hone n (by decide)) (by decide)
      | range o n =>
          exact Except.ok.inj h ▸ isCode_append (htwo o n (by decide) (by decide)) (by decide)
  | mssql =>
      cases ordered with
      | false => cases limit <;> simp [toSql, Dialect.lacks] at h
      | true =>
          cases limit with
          | count n => exact Except.ok.inj h ▸ isCode_append (hone n (by decide)) (by decide)
          | range o n =>
              exact Except.ok.inj h ▸ isCode_append (htwo o n (by decide) (by decide)) (by decide)
  | sybase => simp [toSql, Dialect.lacks] at h

end Limit

/-! ## Clauses -/

namespace Clauses

variable {c : Clauses}

/-- The columns that clauses name, apart from those in the keys of conditions. -/
def names (c : Clauses) : List String :=
  c.group ++ (c.fullText.map FullText.columns).getD [] ++ (c.order.getD []).map OrderItem.name

def calls (c : Clauses) : List String :=
  (c.conditions.leaves ++ (c.having.getD []).leaves).filterMap LeafKey.callOf?

theorem trailing_clauseSql {keyword : String} (hkeyword : isCode keyword = true)
    (hf : Fragment.Sound s f) : Fragment.Trailing s (clauseSql keyword f) := by
  unfold clauseSql
  split
  · exact .nil s
  · exact hf.trailing_cons hkeyword

theorem sound_filterSql (h : s.Admits c.names c.calls) (hf : c.filterSql s = .ok f) :
    Fragment.Sound s f := by
  have hcalls : ∀ t ∈ c.conditions.leaves.filterMap LeafKey.callOf?, s.Plain t.toList := by
    intro t ht
    exact h.calls t (by simpa [calls] using Or.inl ht)
  obtain ⟨filter, hfilter, hf⟩ := Result.do_eq_ok_iff.1 hf
  have hsound := Conditions.sound_predicate h.tablePrefix hcalls hfilter
  cases hfull : c.fullText with
  | none =>
      rw [hfull] at hf
      rwa [← Except.ok.inj hf]
  | some search =>
      simp only [hfull, Result.do_eq_ok_iff, Result.pure_eq_ok_iff] at hf
      obtain ⟨g, hg, rfl⟩ := hf
      have hsearch := FullText.sound_toSql h.tablePrefix
        (fun column hcolumn => h.names column (by simp [names, hfull, hcolumn])) hg
      split
      · exact hsearch
      · exact hsound.append_code (by decide) hsearch

theorem trailing_groupSql (h : s.Admits c.names c.calls) :
    Fragment.Trailing s (c.groupSql s) := by
  have hgroup : s.Admits c.group [] := h.mono (by simp [names]) (by simp)
  exact trailing_clauseSql (by decide) (hgroup.sound_columns (by decide))

theorem trailing_havingSql (h : s.Admits c.names c.calls) (hf : c.havingSql s = .ok f) :
    Fragment.Trailing s f := by
  unfold havingSql at hf
  cases hhaving : c.having with
  | none =>
      rw [hhaving] at hf
      rw [← Except.ok.inj hf]
      exact .nil s
  | some conditions =>
      rw [hhaving] at hf
      obtain ⟨g, hg, rfl⟩ := Result.map_eq_ok_iff.1 hf
      refine trailing_clauseSql (by decide) (Conditions.sound_predicate h.tablePrefix ?_ hg)
      intro t ht
      exact h.calls t (by simpa [calls, hhaving] using Or.inr ht)

theorem trailing_orderSql (h : s.Admits c.names c.calls) (hf : c.orderSql s = .ok f) :
    Fragment.Trailing s f := by
  unfold orderSql at hf
  cases horder : c.order with
  | none =>
      rw [horder] at hf
      rw [← Except.ok.inj hf]
      exact .nil s
  | some order =>
      rw [horder] at hf
      obtain ⟨g, hg, rfl⟩ := Result.map_eq_ok_iff.1 hf
      have hnames : ∀ item ∈ order, s.quoteStyle.AbsentFrom item.name := by
        intro item hitem
        refine h.names _ (List.mem_append_right _ (List.mem_map.2 ⟨item, ?_, rfl⟩))
        rwa [horder, Option.getD_some]
      have hsound := Order.sound_toSql h.tablePrefix hnames hg
      exact hsound.trailing_cons (by decide)

theorem trailing_limitSql (hf : c.limitSql s = .ok f) : Fragment.Trailing s f := by
  unfold limitSql at hf
  split at hf
  · rw [← Except.ok.inj hf]
    exact .nil s
  · obtain ⟨text, htext, rfl⟩ := Result.map_eq_ok_iff.1 hf
    exact (Fragment.Sound.nil s).trailing_cons (Limit.isCode_toSql htext)

/-- Clauses may stand behind any sound fragment. -/
theorem trailing_toSql (h : s.Admits c.names c.calls) (hf : c.toSql s = .ok f) :
    Fragment.Trailing s f := by
  simp only [toSql, Result.do_eq_ok_iff, Result.pure_eq_ok_iff] at hf
  obtain ⟨filter, hfilter, having, hhaving, order, horder, limit, hlimit, rfl⟩ := hf
  have hwhere : Fragment.Trailing s (clauseSql " WHERE " filter) :=
    trailing_clauseSql (by decide) (sound_filterSql h hfilter)
  exact (((hwhere.append (trailing_groupSql h)).append (trailing_havingSql h hhaving)).append
    (trailing_orderSql h horder)).append (trailing_limitSql hlimit)

end Clauses

end KeyedQuery
