import KeyedQuery.Key
import KeyedQuery.Proofs.Result
import KeyedQuery.Proofs.Sql.Lexeme

/-!
# Columns of keys

The column of a key that is read consists of column characters, and none of them is a mark of
quotation. So the column of a condition or of an assignment needs no check of its own.
-/

namespace KeyedQuery

open Sql

namespace Key

variable {α : Type} {read? : String → Option α} {key : String} {k : Key α}

theorem columnFault?_eq_none {column : List Char} (h : columnFault? column = none) :
    column ≠ [] ∧ ∀ c ∈ column, isColumnChar c = true := by
  unfold columnFault? at h
  split at h
  · simp at h
  · next hne =>
      refine ⟨hne, ?_⟩
      split at h
      · simp at h
      · next hfind => simpa using List.find?_eq_none.1 hfind

theorem split_eq_ok {cs : List Char} {column : String} {operator : Option α}
    (h : split read? cs = .ok (column, operator)) :
    ∀ c ∈ column.toList, isColumnChar c = true := by
  have hchecked : columnFault? (cs.takeWhile (· ≠ '[')) = none ∧
      String.ofList (cs.takeWhile (· ≠ '[')) = column := by
    unfold split at h
    simp only at h
    split at h
    all_goals
      obtain ⟨op, -, h⟩ := Result.do_eq_ok_iff.1 h
      split at h
      · simp [throw, throwThe, MonadExceptOf.throw] at h
      · next hfault => exact ⟨hfault, (Prod.mk.inj (Result.pure_eq_ok_iff.1 h)).1⟩
  rw [← hchecked.2, String.toList_ofList]
  exact (columnFault?_eq_none hchecked.1).2

/-- The parts of a key that is read: its marker, and a column of column characters. -/
theorem parse_eq_ok (h : parse read? key = .ok k) :
    k.raw = (Identifier.splitMarker key).1 ∧ ∀ c ∈ k.column.toList, isColumnChar c = true := by
  simp only [parse] at h
  split at h
  · next hsplit =>
      rw [← Except.ok.inj h]
      exact ⟨rfl, split_eq_ok hsplit⟩
  · simp [fault] at h

theorem isMark_of_isColumnChar {c : Char} (h : isColumnChar c = true) :
    isMark c = false ∧ c ≠ '*' := by
  simp only [isColumnChar, Bool.or_eq_true, beq_iff_eq] at h
  have hmark : isMark c = true → c.isAlphanum = false ∧ c ≠ '_' ∧ c ≠ '.' ∧ c ≠ '-' := by
    intro hmark
    simp only [isMark, Bool.or_eq_true, beq_iff_eq] at hmark
    rcases hmark with (((rfl | rfl) | rfl) | rfl) | rfl <;> decide
  refine ⟨?_, ?_⟩
  · by_contra hc
    obtain ⟨halnum, hscore, hpoint, hdash⟩ := hmark (by simpa using hc)
    simp [halnum, hscore, hpoint, hdash] at h
  · rintro rfl
    revert h
    decide

theorem absentFrom_column (h : ∀ c ∈ k.column.toList, isColumnChar c = true) (q : QuoteStyle) :
    q.AbsentFrom k.column := by
  have hopen : isMark q.opening = true := by cases q <;> rfl
  have hclose : isMark q.closing = true := by cases q <;> rfl
  refine ⟨fun hmem => ?_, fun hmem => ?_⟩
  · simp [(isMark_of_isColumnChar (h _ hmem)).1] at hopen
  · simp [(isMark_of_isColumnChar (h _ hmem)).1] at hclose

end Key

end KeyedQuery
