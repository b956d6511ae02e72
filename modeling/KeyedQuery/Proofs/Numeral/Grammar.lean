import KeyedQuery.Binary64.Reading
import KeyedQuery.Proofs.KeyGrammar
import Mathlib.Data.List.TakeWhile

/-!
# Grammar of numerals

The readers of numerals take a text apart from its front: they look for a sign, take digits as long
as there are any, and see what is left. Here the numerals are described as they are written, and
each reader is shown to accept what is written so, and nothing else.
-/

namespace KeyedQuery

namespace Numeral

variable {cs whole fraction tail : List Char} {n k : Int} {d : Decimal}

theorem isNameChar_of_isDigit {c : Char} (h : c.isDigit = true) : Label.isNameChar c = true := by
  simp [Label.isNameChar, Label.isChar, Char.isAlphanum, h]

theorem isAlpha_of_isDigit {c : Char} (h : c.isDigit = true) : c.isAlpha = false :=
  Label.of_isNameChar (P := fun c => c.isDigit = true → c.isAlpha = false) (by decide +kernel)
    (isNameChar_of_isDigit h) h

/-! ## Integers -/

/-- A run of digits that writes the number, leading zeros included. -/
structure IsDigits (cs : List Char) (n : Nat) : Prop where
  ne_nil : cs ≠ []
  isDigit : ∀ c ∈ cs, c.isDigit = true
  number : Nat.ofDigitChars 10 cs 0 = n

/-- Digits that write the integer, with a sign before them or not. -/
inductive IsInteger : List Char → Int → Prop where
  | unsigned {cs : List Char} {n : Nat} (h : IsDigits cs n) : IsInteger cs n
  | plus {cs : List Char} {n : Nat} (h : IsDigits cs n) : IsInteger ('+' :: cs) n
  | minus {cs : List Char} {n : Nat} (h : IsDigits cs n) : IsInteger ('-' :: cs) (-n)

theorem digits?_eq_some_iff {n : Nat} : digits? cs = some n ↔ IsDigits cs n := by
  unfold digits?
  constructor
  · intro h
    split at h
    · next hdigits => exact ⟨hdigits.1, List.all_eq_true.1 hdigits.2, Option.some.inj h⟩
    · cases h
  · rintro ⟨hne, hdigit, rfl⟩
    rw [if_pos ⟨hne, List.all_eq_true.2 hdigit⟩]

def IsUnsigned (cs : List Char) : Prop := ∀ c ∈ cs.head?, c ≠ '+' ∧ c ≠ '-'

theorem isUnsigned_of_isDigit {c : Char} (h : c.isDigit = true) (cs : List Char) :
    IsUnsigned (c :: cs) := by
  intro d hd
  obtain rfl : c = d := by simpa using hd
  constructor <;> rintro rfl <;> cases h

theorem IsDigits.isUnsigned {n : Nat} (h : IsDigits cs n) : IsUnsigned cs := by
  cases cs with
  | nil => exact absurd rfl h.ne_nil
  | cons c cs => exact isUnsigned_of_isDigit (h.isDigit c List.mem_cons_self) cs

theorem sign_cases (cs : List Char) :
    IsUnsigned cs ∨ (∃ ds, cs = '+' :: ds) ∨ ∃ ds, cs = '-' :: ds := by
  cases cs with
  | nil => exact .inl (by simp [IsUnsigned])
  | cons c cs =>
      by_cases hplus : c = '+'
      · exact .inr (.inl ⟨cs, hplus ▸ rfl⟩)
      by_cases hminus : c = '-'
      · exact .inr (.inr ⟨cs, hminus ▸ rfl⟩)
      exact .inl (by simp [IsUnsigned, hplus, hminus])

theorem signed?_minus (cs : List Char) :
    signed? ('-' :: cs) = (digits? cs).map fun n : Nat => -(n : Int) := by
  rw [signed?]
  cases digits? cs <;> rfl

theorem signed?_plus (cs : List Char) :
    signed? ('+' :: cs) = (digits? cs).map fun n : Nat => (n : Int) := by
  rw [signed?]
  cases digits? cs <;> rfl

theorem signed?_of_isUnsigned (h : IsUnsigned cs) :
    signed? cs = (digits? cs).map fun n : Nat => (n : Int) := by
  unfold signed?
  split
  · exact absurd rfl (h '-' rfl).2
  · exact absurd rfl (h '+' rfl).1
  · cases digits? cs <;> rfl

theorem signed?_eq_some_iff : signed? cs = some n ↔ IsInteger cs n := by
  constructor
  · intro h
    obtain hcs | ⟨ds, rfl⟩ | ⟨ds, rfl⟩ := sign_cases cs
    · rw [signed?_of_isUnsigned hcs] at h
      obtain ⟨m, hm, rfl⟩ := Option.map_eq_some_iff.1 h
      exact .unsigned (digits?_eq_some_iff.1 hm)
    · rw [signed?_plus] at h
      obtain ⟨m, hm, rfl⟩ := Option.map_eq_some_iff.1 h
      exact .plus (digits?_eq_some_iff.1 hm)
    · rw [signed?_minus] at h
      obtain ⟨m, hm, rfl⟩ := Option.map_eq_some_iff.1 h
      exact .minus (digits?_eq_some_iff.1 hm)
  · intro h
    cases h with
    | unsigned h =>
        rw [signed?_of_isUnsigned h.isUnsigned, digits?_eq_some_iff.2 h, Option.map_some]
    | plus h => rw [signed?_plus, digits?_eq_some_iff.2 h, Option.map_some]
    | minus h => rw [signed?_minus, digits?_eq_some_iff.2 h, Option.map_some]

/-- A word is read from exactly the texts that write it. -/
theorem readInt64?_eq_some_iff {i : Int64} : readInt64? cs = some i ↔ IsInteger cs i.toInt := by
  simp only [readInt64?, Option.bind_eq_some_iff, int64?_eq_some_iff, exists_eq_right,
    signed?_eq_some_iff]

/-! ## Decimals -/

/-- Nothing, or the letter of an exponent and the integer. -/
inductive IsExponent : List Char → Int → Prop where
  | absent : IsExponent [] 0
  | present {c : Char} {cs : List Char} {n : Int} (letter : c = 'e' ∨ c = 'E')
      (integer : IsInteger cs n) : IsExponent (c :: cs) n

/-- Digits that write the decimal, with a point among them or not, perhaps with an exponent. -/
inductive IsMagnitude : List Char → Decimal → Prop where
  | plain {whole tail : List Char} {k : Int} (digits : ∀ c ∈ whole, c.isDigit = true)
      (ne_nil : whole ≠ []) (exponent : IsExponent tail k) :
      IsMagnitude (whole ++ tail) ⟨Nat.ofDigitChars 10 whole 0, k⟩
  | pointed {whole fraction tail : List Char} {k : Int} (digits : ∀ c ∈ whole, c.isDigit = true)
      (places : ∀ c ∈ fraction, c.isDigit = true) (ne_nil : whole ++ fraction ≠ [])
      (exponent : IsExponent tail k) :
      IsMagnitude (whole ++ '.' :: (fraction ++ tail))
        ⟨Nat.ofDigitChars 10 (whole ++ fraction) 0, k - fraction.length⟩

/-- A decimal with a sign before it or not; the flag says whether it is negative. -/
inductive IsDecimal : List Char → Bool → Decimal → Prop where
  | unsigned {cs : List Char} {d : Decimal} (h : IsMagnitude cs d) : IsDecimal cs false d
  | plus {cs : List Char} {d : Decimal} (h : IsMagnitude cs d) : IsDecimal ('+' :: cs) false d
  | minus {cs : List Char} {d : Decimal} (h : IsMagnitude cs d) : IsDecimal ('-' :: cs) true d

theorem exists_scanExponent_iff :
    (∃ e : Option Int, scanExponent tail = some e ∧ e.getD 0 = k) ↔ IsExponent tail k := by
  constructor
  · rintro ⟨e, h, rfl⟩
    cases tail with
    | nil =>
        cases h
        exact .absent
    | cons c cs =>
        rw [scanExponent] at h
        split at h
        · next hletter =>
            obtain ⟨n, hn, rfl⟩ := Option.map_eq_some_iff.1 h
            exact .present hletter (signed?_eq_some_iff.1 hn)
        · cases h
  · intro h
    cases h with
    | absent => exact ⟨none, rfl, rfl⟩
    | present hletter hinteger =>
        refine ⟨some k, ?_, rfl⟩
        rw [scanExponent, if_pos hletter, signed?_eq_some_iff.2 hinteger, Option.map_some]

/-- An exponent continues no run of digits, and does not start with a point. -/
theorem IsExponent.not_mem_head? (h : IsExponent tail k) :
    (∀ c ∈ tail.head?, c.isDigit = false) ∧ tail.head? ≠ some '.' := by
  cases h with
  | absent => simp
  | present hletter _ => rcases hletter with rfl | rfl <;> simp

/-- A run of digits is scanned up to its end. -/
theorem span_digits (hdigits : ∀ c ∈ whole, c.isDigit = true)
    (htail : ∀ c ∈ tail.head?, c.isDigit = false) :
    (whole ++ tail).takeWhile Char.isDigit = whole ∧
      (whole ++ tail).dropWhile Char.isDigit = tail := by
  rw [List.takeWhile_append_of_pos hdigits, List.dropWhile_append_of_pos hdigits]
  cases tail with
  | nil => simp
  | cons c tail =>
      have hc := htail c rfl
      simp [hc]

theorem IsMagnitude.isUnsigned (h : IsMagnitude cs d) : IsUnsigned cs := by
  cases h with
  | @plain whole tail k hdigits hne _ =>
      obtain ⟨c, whole, rfl⟩ := List.exists_cons_of_ne_nil hne
      exact isUnsigned_of_isDigit (hdigits c List.mem_cons_self) _
  | @pointed whole fraction tail k hdigits _ _ _ =>
      cases whole with
      | nil => simp [IsUnsigned]
      | cons c whole => exact isUnsigned_of_isDigit (hdigits c List.mem_cons_self) _

theorem exists_scan_plain (hdigits : ∀ c ∈ whole, c.isDigit = true) (htail : IsExponent tail k) :
    ∃ e : Option Int, scan (whole ++ tail) = some ⟨whole, none, e⟩ ∧ e.getD 0 = k := by
  obtain ⟨e, he, hk⟩ := exists_scanExponent_iff.2 htail
  obtain ⟨hdigit, hpoint⟩ := htail.not_mem_head?
  obtain ⟨htake, hdrop⟩ := span_digits hdigits hdigit
  refine ⟨e, ?_, hk⟩
  unfold scan
  simp only [htake, hdrop]
  split
  · exact absurd rfl hpoint
  · rw [he, Option.map_some]

theorem exists_scan_pointed (hdigits : ∀ c ∈ whole, c.isDigit = true)
    (hplaces : ∀ c ∈ fraction, c.isDigit = true) (htail : IsExponent tail k) :
    ∃ e : Option Int, scan (whole ++ '.' :: (fraction ++ tail)) = some ⟨whole, some fraction, e⟩ ∧
      e.getD 0 = k := by
  obtain ⟨e, he, hk⟩ := exists_scanExponent_iff.2 htail
  have hpoint : ∀ c ∈ ('.' :: (fraction ++ tail)).head?, c.isDigit = false := by simp
  obtain ⟨htake, hdrop⟩ := span_digits hdigits hpoint
  obtain ⟨htake', hdrop'⟩ := span_digits hplaces htail.not_mem_head?.1
  refine ⟨e, ?_, hk⟩
  unfold scan
  simp only [htake, hdrop, htake', hdrop', he, Option.map_some]

/-! ## Blanks -/

theorem isBlank_of_isDigit {c : Char} (h : c.isDigit = true) : Text.isBlank c = false :=
  Label.isBlank_of_isNameChar (isNameChar_of_isDigit h)

theorem IsDigits.isBlank {n : Nat} (h : IsDigits cs n) : ∀ c ∈ cs, Text.isBlank c = false :=
  fun c hc => isBlank_of_isDigit (h.isDigit c hc)

theorem IsInteger.isBlank (h : IsInteger cs n) : ∀ c ∈ cs, Text.isBlank c = false := by
  cases h with
  | unsigned h => exact h.isBlank
  | plus h => exact List.forall_mem_cons.2 ⟨by decide, h.isBlank⟩
  | minus h => exact List.forall_mem_cons.2 ⟨by decide, h.isBlank⟩

theorem IsInteger.ne_nil (h : IsInteger cs n) : cs ≠ [] := by
  cases h with
  | unsigned h => exact h.ne_nil
  | plus _ => exact List.cons_ne_nil _ _
  | minus _ => exact List.cons_ne_nil _ _

theorem IsExponent.isBlank (h : IsExponent tail k) : ∀ c ∈ tail, Text.isBlank c = false := by
  cases h with
  | absent => exact List.forall_mem_nil _
  | present hletter hinteger =>
      refine List.forall_mem_cons.2 ⟨?_, hinteger.isBlank⟩
      rcases hletter with rfl | rfl <;> decide

theorem IsMagnitude.isBlank (h : IsMagnitude cs d) : ∀ c ∈ cs, Text.isBlank c = false := by
  cases h with
  | plain hdigits _ hexponent =>
      exact List.forall_mem_append.2
        ⟨fun c hc => isBlank_of_isDigit (hdigits c hc), hexponent.isBlank⟩
  | pointed hdigits hplaces _ hexponent =>
      exact List.forall_mem_append.2 ⟨fun c hc => isBlank_of_isDigit (hdigits c hc),
        List.forall_mem_cons.2 ⟨by decide, List.forall_mem_append.2
          ⟨fun c hc => isBlank_of_isDigit (hplaces c hc), hexponent.isBlank⟩⟩⟩

theorem IsMagnitude.ne_nil (h : IsMagnitude cs d) : cs ≠ [] := by
  cases h with
  | plain _ hne _ => simp [hne]
  | pointed _ _ _ _ => simp

theorem IsDecimal.isBlank {negative : Bool} (h : IsDecimal cs negative d) :
    ∀ c ∈ cs, Text.isBlank c = false := by
  cases h with
  | unsigned h => exact h.isBlank
  | plus h => exact List.forall_mem_cons.2 ⟨by decide, h.isBlank⟩
  | minus h => exact List.forall_mem_cons.2 ⟨by decide, h.isBlank⟩

theorem IsDecimal.ne_nil {negative : Bool} (h : IsDecimal cs negative d) : cs ≠ [] := by
  cases h with
  | unsigned h => exact h.ne_nil
  | plus _ => exact List.cons_ne_nil _ _
  | minus _ => exact List.cons_ne_nil _ _

end Numeral

open Numeral

namespace Binary64

variable {cs : List Char} {d : Decimal}

theorem isMagnitude_of_readMagnitude? (h : readMagnitude? cs = some d) : IsMagnitude cs d := by
  obtain ⟨parts, hscan, hparts⟩ := Option.bind_eq_some_iff.1 h
  have hwhole : ∀ c ∈ cs.takeWhile Char.isDigit, c.isDigit = true := fun c => List.mem_takeWhile_imp
  unfold scan at hscan
  simp only at hscan
  split at hparts
  · cases hparts
  · next hne =>
      obtain rfl := Option.some.inj hparts
      split at hscan
      · next rest hrest =>
          obtain ⟨e, he, rfl⟩ := Option.map_eq_some_iff.1 hscan
          have hmagnitude := IsMagnitude.pointed hwhole (fun c => List.mem_takeWhile_imp) hne
            (exists_scanExponent_iff.1 ⟨e, he, rfl⟩)
          rwa [List.takeWhile_append_dropWhile, ← hrest, List.takeWhile_append_dropWhile]
            at hmagnitude
      · obtain ⟨e, he, rfl⟩ := Option.map_eq_some_iff.1 hscan
        rw [Option.getD_none, List.append_nil] at hne
        have hmagnitude := IsMagnitude.plain hwhole hne (exists_scanExponent_iff.1 ⟨e, he, rfl⟩)
        rw [List.takeWhile_append_dropWhile] at hmagnitude
        simpa [Parts.value] using hmagnitude

theorem readMagnitude?_eq_some_iff : readMagnitude? cs = some d ↔ IsMagnitude cs d := by
  refine ⟨isMagnitude_of_readMagnitude?, fun h => ?_⟩
  cases h with
  | plain hdigits hne hexponent =>
      obtain ⟨e, hscan, rfl⟩ := exists_scan_plain hdigits hexponent
      simp [readMagnitude?, hscan, hne, Parts.value]
  | pointed hdigits hplaces hne hexponent =>
      obtain ⟨e, hscan, rfl⟩ := exists_scan_pointed hdigits hplaces hexponent
      rw [readMagnitude?, hscan, Option.bind_some, Option.getD_some, if_neg hne]
      rfl

/-- No word for a number that is not finite is a decimal, which holds a digit or a point. -/
theorem sameLetterChars_of_isMagnitude {word : List Char} (h : IsMagnitude cs d)
    (hword : word.all (fun c => c.toLower.isAlpha) = true) :
    Text.sameLetterChars cs word = false := by
  rw [Bool.eq_false_iff]
  intro hsame
  have halpha := Text.isAlpha_of_sameLetterChars hsame (List.all_eq_true.1 hword)
  cases h with
  | @plain whole tail k hdigits hne _ =>
      obtain ⟨c, whole, rfl⟩ := List.exists_cons_of_ne_nil hne
      have hc := halpha c (by simp)
      rw [isAlpha_of_isDigit (hdigits c List.mem_cons_self)] at hc
      cases hc
  | pointed _ _ _ _ => exact absurd (halpha '.' (by simp)) (by decide)

variable {round : Bool → Decimal → Binary64} {negative : Bool} {x : Binary64}

/-- A number with a finite reading is a decimal, and its reading is what this is rounded to. -/
theorem readUnsigned?_eq_some_iff (hx : x.isFinite = true) :
    readUnsigned? round negative cs = some x ↔
      ∃ d, IsMagnitude cs d ∧ round negative d = x := by
  unfold readUnsigned?
  constructor
  · intro h
    split at h
    · cases h
      cases hx
    · split at h
      · cases h
        cases hx
      · obtain ⟨d, hd, hround⟩ := Option.map_eq_some_iff.1 h
        exact ⟨d, readMagnitude?_eq_some_iff.1 hd, hround⟩
  · rintro ⟨d, hd, rfl⟩
    have hinf : Text.sameLetterChars cs "inf".toList = false :=
      sameLetterChars_of_isMagnitude hd (by decide)
    have hinfinity : Text.sameLetterChars cs "infinity".toList = false :=
      sameLetterChars_of_isMagnitude hd (by decide)
    have hnan : Text.sameLetterChars cs "nan".toList = false :=
      sameLetterChars_of_isMagnitude hd (by decide)
    rw [hinf, hinfinity, hnan, readMagnitude?_eq_some_iff.2 hd]
    rfl

theorem readWith?_of_isUnsigned (h : IsUnsigned cs) :
    readWith? round cs = readUnsigned? round false cs := by
  unfold readWith?
  split
  · exact absurd rfl (h '-' rfl).2
  · exact absurd rfl (h '+' rfl).1
  · rfl

theorem readWith?_eq_some_iff (hx : x.isFinite = true) :
    readWith? round cs = some x ↔ ∃ negative d, IsDecimal cs negative d ∧ round negative d = x := by
  constructor
  · intro h
    obtain hcs | ⟨ds, rfl⟩ | ⟨ds, rfl⟩ := sign_cases cs
    · rw [readWith?_of_isUnsigned hcs, readUnsigned?_eq_some_iff hx] at h
      obtain ⟨d, hd, hround⟩ := h
      exact ⟨false, d, .unsigned hd, hround⟩
    · rw [readWith?, readUnsigned?_eq_some_iff hx] at h
      obtain ⟨d, hd, hround⟩ := h
      exact ⟨false, d, .plus hd, hround⟩
    · rw [readWith?, readUnsigned?_eq_some_iff hx] at h
      obtain ⟨d, hd, hround⟩ := h
      exact ⟨true, d, .minus hd, hround⟩
  · rintro ⟨negative, d, hdecimal, hround⟩
    cases hdecimal with
    | unsigned hd =>
        rw [readWith?_of_isUnsigned hd.isUnsigned, readUnsigned?_eq_some_iff hx]
        exact ⟨d, hd, hround⟩
    | plus hd =>
        rw [readWith?, readUnsigned?_eq_some_iff hx]
        exact ⟨d, hd, hround⟩
    | minus hd =>
        rw [readWith?, readUnsigned?_eq_some_iff hx]
        exact ⟨d, hd, hround⟩

end Binary64

end KeyedQuery
