import KeyedQuery.Proofs.Sql.Name
import KeyedQuery.Proofs.Sql.Scalar

/-!
# Properties that composition keeps

Fragments are put together in few ways: code without parentheses keeps two of them apart, and a pair
of parentheses encloses one. A property that literals have and that both ways keep holds of all that
is put together from names, constants and calls of which it holds.
-/

namespace KeyedQuery

namespace Sql

def isUnnested (cs : List Char) : Bool := cs.all fun c => c != '(' && c != ')'

/-- Whether a text is code without parentheses. -/
def isFlat (text : String) : Bool := isCode text && isUnnested text.toList

/-- Whether a text is code whose only parenthesis is an opening one at the end. -/
def isOpening (text : String) : Bool :=
  isCode text && text.toList.getLast? == some '(' && isUnnested text.toList.dropLast

variable {text : String}

theorem isCode_of_isFlat (h : isFlat text = true) : isCode text = true :=
  (Bool.and_eq_true_iff.1 h).1

theorem isCode_of_isOpening (h : isOpening text = true) : isCode text = true := by
  simp only [isOpening, Bool.and_eq_true] at h
  exact h.1.1

theorem isFlat_of_isNumeral (h : isNumeral text.toList = true) : isFlat text = true := by
  refine Bool.and_eq_true_iff.2 ⟨isCode_of_isNumeral h, List.all_eq_true.2 fun c hc => ?_⟩
  have hchar := (isNumeralChar_of_isNumeral h).2 c hc
  have hopen : c ≠ '(' := by
    rintro rfl
    simp [isNumeralChar] at hchar
  have hclose : c ≠ ')' := by
    rintro rfl
    simp [isNumeralChar] at hchar
  simp [hopen, hclose]

end Sql

open Sql

theorem Conjunctor.isFlat_separator (c : Conjunctor) : isFlat c.separator = true := by
  cases c <;> decide

namespace Fragment

/-- A property of fragments that is kept when they are put together. Soundness and balance are two
of them. There is code between any two fragments, since soundness is lost where quotations meet. -/
structure Compositional (P : Fragment → Prop) : Prop where
  nil : P []
  literal (text : String) : P [.literal text]
  append {f g : Fragment} {text : String} (hf : P f) (h : isFlat text = true) (hg : P g) :
    P (f ++ .code text :: g)
  enclose {f g : Fragment} {text : String} (hf : P f) (h : isOpening text = true) (hg : P g) :
    P (f ++ .code text :: (g ++ [.code ")"]))

namespace Compositional

variable {P : Fragment → Prop} (hP : Compositional P)

include hP

theorem flat {text : String} (h : isFlat text = true) : P [.code text] := hP.append hP.nil h hP.nil

theorem parens {f : Fragment} (hf : P f) : P f.parens := hP.enclose hP.nil (by decide) hf

theorem join {separator : String} (hseparator : isFlat separator = true)
    {fragments : List Fragment} (h : ∀ f ∈ fragments, P f) : P (join separator fragments) := by
  induction fragments with
  | nil => exact hP.nil
  | cons f fragments ih =>
      rw [List.forall_mem_cons] at h
      cases fragments with
      | nil =>
          rw [join_singleton]
          exact h.1
      | cons g fragments =>
          rw [join_cons_cons]
          exact hP.append h.1 hseparator (ih h.2)

end Compositional

theorem compositional_sound (s : Settings) : Compositional (Sound s) where
  nil := .nil s
  literal := .literal s
  append hf h hg := hf.append_code (isCode_of_isFlat h) hg
  enclose hf h hg := hf.append_code (isCode_of_isOpening h) (hg.append_code (by decide) (.nil s))

end Fragment

/-! ## Names and constants -/

variable {P : Fragment → Prop} (hP : Fragment.Compositional P)

include hP

theorem Identifier.holds_toSql {i : Identifier} (h : ∀ text, .name text ∈ i → P [.name text]) :
    P i.toSql := by
  refine hP.join (by decide) (List.forall_mem_map.2 fun part hpart => ?_)
  cases part with
  | name text => exact h text hpart
  | star => exact hP.flat (by decide)

namespace Literal

variable {raw : Bool} {v : Value} {p : Piece}

omit hP in
theorem isFunctionCall_of_verbatim? {t : String} (h : verbatim? raw v = some t) :
    isFunctionCall t = true := by
  unfold verbatim? at h
  split at h
  · split at h
    · next hcall =>
        rw [← Option.some.inj h]
        exact (Bool.and_eq_true_iff.1 hcall).2
    · simp at h
  · simp at h

theorem holds_ofText {text : String}
    (hcall : ∀ t, verbatim? raw (.text text) = some t → P [.call t]) : P [ofText raw text] := by
  unfold ofText
  split
  · next h => exact hcall text (if_pos h)
  · exact hP.literal text

/-- The literal of a value has the property if what it lets through has it. -/
theorem holds_ofValue (h : ofValue raw v = .ok p)
    (hcall : ∀ t, verbatim? raw v = some t → P [.call t]) : P [p] := by
  cases v with
  | null =>
      rw [← Except.ok.inj h]
      exact hP.flat (by decide)
  | bool b =>
      rw [← Except.ok.inj h]
      exact hP.flat (by cases b <;> decide)
  | int n =>
      rw [← Except.ok.inj h]
      exact hP.flat (isFlat_of_isNumeral (isNumeral_ofInt _))
  | float x =>
      obtain ⟨text, htext, rfl⟩ := Result.map_eq_ok_iff.1 h
      exact hP.flat (isFlat_of_isNumeral (Value.isNumeral_of_floatSql htext))
  | text t =>
      rw [← Except.ok.inj h]
      exact holds_ofText hP hcall
  | list items =>
      rw [← Except.ok.inj h]
      exact hP.literal _

theorem holds_ofScalar (h : ofScalar v = .ok p) : P [p] := holds_ofValue hP h (by simp)

theorem holds_ofScalars {values : List Value} {f : Fragment} (h : ofScalars values = .ok f) :
    P f := by
  simp only [ofScalars, Result.do_eq_ok_iff, Result.pure_eq_ok_iff] at h
  obtain ⟨pieces, hpieces, rfl⟩ := h
  refine hP.join (by decide) (List.forall_mem_map.2 ?_)
  exact Result.forall_mem_of_mapM hpieces fun _ _ _ => holds_ofScalar hP

end Literal

end KeyedQuery
