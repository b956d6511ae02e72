import KeyedQuery.Proofs.Result
import KeyedQuery.Proofs.Sql.Atom
import KeyedQuery.Sql.Literal

/-!
# Values as constants

The text of every number is a numeral, and the literal of a value is one token: the constant that
the value stands for.
-/

namespace KeyedQuery

namespace Sql

/-! ## Numbers are written as numerals -/

theorem isMagnitude_of_isDigit {cs : List Char} (hne : cs ≠ []) (h : ∀ c ∈ cs, c.isDigit = true) :
    isMagnitude cs = true := by
  obtain ⟨c, cs, rfl⟩ := List.exists_cons_of_ne_nil hne
  have hrest : (c :: cs).dropWhile Char.isDigit = [] := List.dropWhile_eq_nil_iff.2 h
  simp [isMagnitude, hrest, h c List.mem_cons_self]

theorem isMagnitude_append {cs ds : List Char} (hne : cs ≠ [])
    (hcs : ∀ c ∈ cs, c.isDigit = true) (hds : ∀ c ∈ ds, c.isDigit = true) :
    isMagnitude (cs ++ '.' :: ds) = true := by
  obtain ⟨c, cs, rfl⟩ := List.exists_cons_of_ne_nil hne
  have hrest : (c :: cs ++ '.' :: ds).dropWhile Char.isDigit = '.' :: ds := by
    rw [List.dropWhile_append_of_pos hcs]
    rfl
  rw [isMagnitude, hrest]
  simpa [hcs c List.mem_cons_self] using hds

theorem isNumeral_sign {cs : List Char} (negative : Bool) (h : isMagnitude cs = true) :
    isNumeral ((if negative then ['-'] else []) ++ cs) = true := by
  cases negative with
  | true => exact h
  | false =>
      unfold isNumeral
      split
      · next heq => simp [isMagnitude, show cs = _ from heq] at h
      · exact h

theorem isNumeral_ofInt (n : Int) : isNumeral (Numeral.ofInt n).toList = true := by
  have hdigits : isMagnitude (Nat.toDigits 10 n.natAbs) = true :=
    isMagnitude_of_isDigit Nat.toDigits_ne_nil fun _ => Numeral.isDigit_of_mem_toDigits
  rw [Numeral.toList_ofInt]
  simpa using isNumeral_sign (decide (n < 0)) hdigits

/-- Digits written positionally are a numeral, wherever the point stands. -/
theorem isMagnitude_positionalText {digits : List Char} (h : ∀ c ∈ digits, c.isDigit = true)
    (point : Int) : isMagnitude (Binary64.Layout.positionalText false digits point) = true := by
  have hzeros : ∀ n, ∀ c ∈ List.replicate n '0' ++ digits, c.isDigit = true := by
    intro n c hc
    rcases List.mem_append.1 hc with hc | hc
    · rw [List.eq_of_mem_replicate hc]
      rfl
    · exact h c hc
  unfold Binary64.Layout.positionalText
  split
  · have hzero : ∀ c ∈ ['0'], c.isDigit = true := List.forall_mem_singleton.2 rfl
    exact isMagnitude_append (List.cons_ne_nil _ _) hzero (hzeros _)
  next hpositive =>
  split
  · next hinside =>
      refine isMagnitude_append ?_ (fun c hc => h c (List.mem_of_mem_take hc))
        (fun c hc => h c (List.mem_of_mem_drop hc))
      rw [Ne, List.take_eq_nil_iff, not_or]
      refine ⟨by omega, ?_⟩
      rintro rfl
      exact hpositive (Int.le_of_lt hinside)
  · refine isMagnitude_of_isDigit ?_ ?_
    · intro hnil
      have hlength := congrArg List.length hnil
      simp only [Bool.false_eq_true, if_false, List.append_nil, List.length_append,
        List.length_replicate, List.length_nil] at hlength
      omega
    · intro c hc
      simp only [Bool.false_eq_true, if_false, List.append_nil] at hc
      rcases List.mem_append.1 hc with hc | hc
      · exact h c hc
      · exact hzeros _ c (List.mem_append_left _ hc)

theorem isNumeral_finiteText (x : Binary64.Finite) :
    isNumeral (Binary64.Layout.sql.finiteText x).toList = true := by
  have hdigits : ∀ d : Numeral.Decimal, ∀ c ∈ (Binary64.Layout.significantDigits d).1,
      c.isDigit = true := by
    intro d c hc
    have hmem : c ∈ Nat.toDigits 10 d.digits := by
      rw [Binary64.Layout.significantDigits, List.mem_reverse] at hc
      exact List.mem_reverse.1 ((List.dropWhile_suffix _).mem hc)
    exact Numeral.isDigit_of_mem_toDigits hmem
  rw [Binary64.Layout.finiteText, String.toList_ofList]
  refine isNumeral_sign x.negative ?_
  split
  · rfl
  · exact isMagnitude_positionalText (hdigits _) _

end Sql

open Sql

theorem Value.isNumeral_of_floatSql {x : Binary64} {text : String}
    (h : floatSql x = .ok text) : isNumeral text.toList = true := by
  obtain ⟨hfinite, rfl⟩ := (floatSql_eq_ok_iff x text).1 h
  cases x with
  | finite x => exact isNumeral_finiteText x
  | infinite negative => simp at hfinite
  | nan => simp at hfinite

/-- The text of a number is a numeral. -/
theorem Value.isNumeral_of_numericSql? {v : Value} {text : String}
    (h : v.numericSql? = some (.ok text)) : isNumeral text.toList = true := by
  cases v with
  | int n =>
      rw [← Except.ok.inj (Option.some.inj h)]
      exact isNumeral_ofInt _
  | float x => exact isNumeral_of_floatSql (Option.some.inj h)
  | null => simp [numericSql?] at h
  | bool b => simp [numericSql?] at h
  | text s => simp [numericSql?] at h
  | list items => simp [numericSql?] at h

/-! ## Values are written as constants -/

theorem Sql.isCode_of_isNumeral {text : String} (h : isNumeral text.toList = true) :
    isCode text = true := by
  obtain ⟨hne, hchars⟩ := isNumeralChar_of_isNumeral h
  refine isCode_iff.2 ⟨hne, fun c hc => ?_⟩
  exact (isWordChar_of_isNumeralChar (hchars c hc)).2.2

def Sql.Scalar.ofValue : Value → Scalar
  | .null => null
  | .bool b => number (if b then "1" else "0")
  | .int n => number (Numeral.ofInt n.toInt)
  | .float x => number x.text
  | .text s => text s
  | .list items => text (Json.arr (Value.toJsonAll items)).render

/-- A sound piece that is the token of a constant. -/
structure Piece.Denotes (p : Piece) (x : Scalar) : Prop where
  sound (s : Settings) : p.Sound s
  tokens : Fragment.tokens [p] = [x.token]

theorem Piece.denotes_number {text : String} (h : isNumeral text.toList = true) :
    (Piece.code text).Denotes (.number text) :=
  ⟨fun _ => isCode_of_isNumeral h, Fragment.tokens_code_of_isNumeral h⟩

theorem Piece.denotes_text (text : String) : (Piece.literal text).Denotes (.text text) :=
  ⟨fun _ => trivial, rfl⟩

namespace Literal

theorem ofText_of_not_isFunctionCall {text : String} (h : isFunctionCall text = false)
    (raw : Bool) : ofText raw text = .literal text := by
  simp [ofText, h]

theorem ne_empty_of_isFunctionCall {text : String} (h : isFunctionCall text = true) :
    text ≠ "" := by
  rintro rfl
  simp [isFunctionCall, isArguments] at h

/-- The text that a value lets through as it is, if it does; `raw` says whether the value belongs to
a raw key. -/
def verbatim? (raw : Bool) : Value → Option String
  | .text t => if raw && isFunctionCall t then some t else none
  | _ => none

@[simp] theorem verbatim?_false (v : Value) : verbatim? false v = none := by
  cases v <;> rfl

theorem sound_ofText {s : Settings} {raw : Bool} {text : String}
    (h : verbatim? raw (.text text) = some text → s.Plain text.toList) :
    (ofText raw text).Sound s := by
  unfold ofText
  split
  · next hcall =>
      refine ⟨ne_empty_of_isFunctionCall (Bool.and_eq_true_iff.1 hcall).2, h ?_⟩
      rw [verbatim?, if_pos hcall]
  · trivial

/-- The literal of a value under a key without the marker is the constant of the value. -/
theorem denotes_ofScalar {v : Value} {p : Piece} (h : ofScalar v = .ok p) :
    p.Denotes (Scalar.ofValue v) := by
  cases v with
  | null =>
      rw [← Except.ok.inj h]
      have hnull : isCode "NULL" = true := by decide
      exact ⟨fun _ => hnull, by decide⟩
  | bool b =>
      rw [← Except.ok.inj h]
      exact Piece.denotes_number (by cases b <;> decide)
  | int n =>
      rw [← Except.ok.inj h]
      exact Piece.denotes_number (isNumeral_ofInt _)
  | float x =>
      obtain ⟨text, htext, rfl⟩ := Result.map_eq_ok_iff.1 h
      rw [Scalar.ofValue, ← ((Value.floatSql_eq_ok_iff x text).1 htext).2]
      exact Piece.denotes_number (Value.isNumeral_of_floatSql htext)
  | text t =>
      rw [← Except.ok.inj h]
      exact Piece.denotes_text t
  | list items =>
      rw [← Except.ok.inj h]
      exact Piece.denotes_text _

theorem denotes_ofScalars {values : List Value} {f : Fragment} (h : ofScalars values = .ok f) :
    (∀ s, Fragment.Sound s f) ∧ f.tokens = Scalar.tokensAll (values.map Scalar.ofValue) := by
  simp only [ofScalars, Result.do_eq_ok_iff, Result.pure_eq_ok_iff, Result.mapM_eq_ok_iff] at h
  obtain ⟨pieces, hpieces, rfl⟩ := h
  have hdenotes : List.Forall₂ (fun v p => Piece.Denotes p (Scalar.ofValue v)) values pieces :=
    hpieces.imp fun v p => denotes_ofScalar
  clear hpieces
  constructor
  · refine fun s => Fragment.Sound.join (by decide) ?_
    induction hdenotes with
    | nil => simp
    | cons hp _ ih => exact List.forall_mem_cons.2 ⟨.singleton (hp.sound s), ih⟩
  · rw [Fragment.tokens_join (by decide), Scalar.tokensAll]
    congr 1
    induction hdenotes with
    | nil => rfl
    | cons hp _ ih =>
        rw [List.map_cons, List.map_cons, List.map_cons, List.map_cons, ih, hp.tokens]

/-- The literal of a value is sound if what it lets through is plain. -/
theorem sound_ofValue {s : Settings} {raw : Bool} {v : Value} {p : Piece}
    (h : ofValue raw v = .ok p) (hcall : ∀ t, verbatim? raw v = some t → s.Plain t.toList) :
    p.Sound s := by
  cases v with
  | text t =>
      rw [← Except.ok.inj h]
      exact sound_ofText (hcall t)
  | null => exact (denotes_ofScalar (v := .null) h).sound s
  | bool b => exact (denotes_ofScalar (v := .bool b) h).sound s
  | int n => exact (denotes_ofScalar (v := .int n) h).sound s
  | float x => exact (denotes_ofScalar (v := .float x) h).sound s
  | list items => exact (denotes_ofScalar (v := .list items) h).sound s

end Literal

end KeyedQuery
