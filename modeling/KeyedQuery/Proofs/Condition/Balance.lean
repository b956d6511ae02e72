import KeyedQuery.Proofs.Condition.Predicate
import KeyedQuery.Proofs.Condition.TopLevel
import KeyedQuery.Proofs.Sql.Balance

/-!
# Balance of conditions

Conditions are balanced as far as the calls are that raw keys let through. The shape of a call is
meant to have one pair of parentheses, but it rules out only a second closing one: `F(()` has the
shape, and so has a call with an open quotation in it. A call that is not balanced itself comes out
as it is, and then the conditions are not balanced either.
-/

namespace KeyedQuery

open Sql

namespace Literal

theorem isMark_of_isFunctionChar {c : Char} (h : isFunctionChar c = true) : isMark c = false := by
  by_contra hmark
  simp only [Bool.not_eq_false, isMark, Bool.or_eq_true, beq_iff_eq] at hmark
  revert h
  rcases hmark with (((rfl | rfl) | rfl) | rfl) | rfl <;> decide

theorem stops_of_isFunctionCall (s : Settings) {text : String} (h : isFunctionCall text = true) :
    s.Stops text.toList := by
  obtain ⟨name, arguments, htext, hname, -⟩ := of_isFunctionCall h
  have hhead : ∀ c, text.toList.head? = some c → isMark c = false := by
    intro c hc
    rw [htext] at hc
    cases name with
    | nil =>
        obtain rfl : '(' = c := Option.some.inj hc
        decide
    | cons d name =>
        obtain rfl : d = c := Option.some.inj hc
        exact isMark_of_isFunctionChar (hname d List.mem_cons_self)
  have hclosing : isMark s.quoteStyle.closing = true := by cases s.quoteStyle <;> rfl
  refine ⟨fun hc => ?_, fun hc => ?_⟩
  · exact absurd (hhead _ hc) (by decide)
  · rw [hhead _ hc] at hclosing
    cases hclosing

/-- A call ends with the only closing parenthesis that it has. -/
theorem exists_of_isFunctionCall {text : String} (h : isFunctionCall text = true) :
    ∃ opened, text.toList = opened ++ [')'] ∧ ')' ∉ opened ∧ '(' ∈ opened := by
  obtain ⟨name, arguments, htext, hname, harguments⟩ := of_isFunctionCall h
  refine ⟨name ++ '(' :: arguments, htext, ?_, by simp⟩
  rw [List.mem_append, List.mem_cons]
  rintro (hc | hc | hc)
  · exact absurd (hname _ hc) (by decide)
  · exact absurd hc (by decide)
  · exact harguments hc

/-- A call without quotation is balanced if it has no second opening parenthesis. -/
theorem balanced_iff_of_isFunctionCall {s : Settings} {text : String}
    (h : isFunctionCall text = true) (hplain : s.Plain text.toList) :
    IsBalanced s text ↔ text.toList.count '(' = 1 := by
  obtain ⟨opened, htext, hclose, hopen⟩ := exists_of_isFunctionCall h
  have hscan : scan s text.toList = text.toList.map .char := by
    have hall := scan_append_of_plain hplain []
    rwa [List.append_nil, scan_nil, List.append_nil] at hall
  have hcount : (opened ++ [')']).count '(' = opened.count '(' := by simp
  have hpos : 0 < opened.count '(' := List.count_pos_iff.2 hopen
  obtain ⟨n, hn⟩ := Nat.exists_eq_succ_of_ne_zero (Nat.pos_iff_ne_zero.1 hpos)
  rw [IsBalanced, hscan, htext, hcount, List.map_append, depth?_append,
    depth?_of_not_mem_closing hclose, Nat.zero_add, hn]
  change some n = some 0 ↔ _
  simp

end Literal

namespace Conditions

variable {s : Settings} {c : Conjunctor} {m : Conditions} {f : Fragment} {t : String}

theorem yields_neutral (hpre : s.quoteStyle.AbsentFrom s.tablePrefix)
    (hcalls : ∀ t ∈ m.leaves.filterMap LeafKey.callOf?, IsBalanced s t) :
    LeafKey.Yields s (Fragment.Neutral s) m.leaves :=
  LeafKey.yields_of_calls (Fragment.compositional_neutral s) (fun _ => Fragment.neutral_name) hpre
    fun t ht => Fragment.neutral_call (hcalls t ht)

def ofCall (t : String) : Conditions := [("#a", .value (.text t))]

theorem callOf?_ofCall (h : Literal.isFunctionCall t = true) :
    (ofCall t).leaves.filterMap LeafKey.callOf? = [t] := by
  have hkey : LeafKey.parse "#a" = .ok ⟨true, "a", none⟩ := by decide
  have hcall : LeafKey.callOf? ("#a", .text t) = some t := by
    simp [LeafKey.callOf?, hkey, LeafKey.verbatim?, Literal.verbatim?, h]
  exact List.filterMap_cons_some hcall

theorem toSql_ofCall (s : Settings) (h : Literal.isFunctionCall t = true) :
    (ofCall t).toSql s .and = .ok [.name "a", .code " = ", .call t] := by
  have hgroup : GroupKey.parse? "#a" = none := by decide
  have hkey : LeafKey.parse "#a" = .ok ⟨true, "a", none⟩ := by decide
  have hpiece : Literal.ofText true t = .call t := if_pos h
  rw [ofCall, toSql_singleton, Node.toSql, hgroup, hkey]
  change Except.ok ([.name "a"] ++ [.code " = ", Literal.ofText true t]) = _
  rw [hpiece]
  rfl

theorem predicate_ofCall (s : Settings) (t : String) :
    (ofCall t).predicate s = (ofCall t).toSql s .and :=
  rfl

/-- A call comes out with the depth that it has on its own. -/
theorem balanced_ofCall_iff (s : Settings) (h : Literal.isFunctionCall t = true) :
    IsBalanced s (Fragment.text s [.name "a", .code " = ", .call t]) ↔ IsBalanced s t := by
  have hname : s.quoteStyle.AbsentFrom "a" := by cases s.quoteStyle <;> decide
  have hleft : Fragment.Neutral s ([.name "a"] ++ [.code " = "]) :=
    (Fragment.compositional_neutral s).append (Fragment.neutral_name hname) (by decide)
      (Fragment.neutral_nil s)
  have hdepth := hleft 0 t.toList (Literal.stops_of_isFunctionCall s h)
  have hchars : Fragment.chars s [.name "a", .code " = ", .call t] =
      Fragment.chars s ([.name "a"] ++ [.code " = "]) ++ t.toList := by
    simp [Piece.chars]
  rw [IsBalanced, Fragment.toList_text, hchars, hdepth]
  rfl

/-- Conditions and predicates are balanced if the calls are that they let through, and a call that
is not balanced leaves conditions that are not balanced. -/
theorem balanced_up_to_calls (s : Settings) (hpre : s.quoteStyle.AbsentFrom s.tablePrefix) :
    (∀ (m : Conditions) (c : Conjunctor) (f : Fragment),
      (∀ t ∈ m.leaves.filterMap LeafKey.callOf?, IsBalanced s t) →
      m.toSql s c = .ok f ∨ m.predicate s = .ok f → IsBalanced s (f.text s)) ∧
    (∀ t, Literal.isFunctionCall t = true → ¬ IsBalanced s t →
      ∃ (m : Conditions) (f : Fragment), m.leaves.filterMap LeafKey.callOf? = [t] ∧
        m.toSql s .and = .ok f ∧ m.predicate s = .ok f ∧ ¬ IsBalanced s (f.text s)) ∧
    ∀ t, Literal.isFunctionCall t = true → s.Plain t.toList →
      (IsBalanced s t ↔ t.toList.count '(' = 1) := by
  refine ⟨?_, ?_, fun t hcall hplain => Literal.balanced_iff_of_isFunctionCall hcall hplain⟩
  · intro m c f hcalls h
    have hleaves := yields_neutral hpre hcalls
    have hP := Fragment.compositional_neutral s
    rcases h with h | h
    · exact (holds_toSql hP hleaves h).balanced
    · exact (holds_predicate hP hleaves h).balanced
  · intro t hcall ht
    refine ⟨ofCall t, _, callOf?_ofCall hcall, toSql_ofCall s hcall, ?_, ?_⟩
    · rw [predicate_ofCall, toSql_ofCall s hcall]
    · rwa [balanced_ofCall_iff s hcall]

theorem balanced_up_to_calls_at :
    QuoteStyle.AbsentFrom .ansi "t_" ∧
      ∀ f, (ofCall "NOW()").predicate ⟨.mysql, .ansi, "t_"⟩ = .ok f →
        IsBalanced ⟨.mysql, .ansi, "t_"⟩ (f.text ⟨.mysql, .ansi, "t_"⟩) := by
  have hcall : Literal.isFunctionCall "NOW()" = true := by decide
  refine ⟨by decide, fun f h => ?_⟩
  refine (balanced_up_to_calls _ (by decide)).1 (ofCall "NOW()") .and f (fun t ht => ?_) (.inr h)
  rw [callOf?_ofCall hcall, List.mem_singleton] at ht
  rw [ht, Literal.balanced_iff_of_isFunctionCall hcall (by decide)]
  decide

/-- A text with two opening parentheses and one closing one has the shape of a call, and comes out
as it is. -/
theorem unbalanced_call :
    QuoteStyle.AbsentFrom .ansi "" ∧
      ((ofCall "F(()").toSql ⟨.mysql, .ansi, ""⟩ .and).map (Fragment.text ⟨.mysql, .ansi, ""⟩) =
        .ok "\"a\" = F(()" ∧
      ¬ IsBalanced ⟨.mysql, .ansi, ""⟩ "\"a\" = F(()" := by
  have hcall : Literal.isFunctionCall "F(()" = true := by decide
  have htext : Fragment.text ⟨.mysql, .ansi, ""⟩ [.name "a", .code " = ", .call "F(()"] =
      "\"a\" = F(()" := by decide +kernel
  refine ⟨by decide, ?_, ?_⟩
  · rw [toSql_ofCall _ hcall, ← htext]
    rfl
  · rw [← htext, balanced_ofCall_iff _ hcall,
      Literal.balanced_iff_of_isFunctionCall hcall (by decide)]
    decide

end Conditions

end KeyedQuery
