import KeyedQuery.Json.Printer
import KeyedQuery.Json.Token
import Mathlib.Data.List.TakeWhile

/-!
# Tokens read back

What is written as a JSON text or as an integer is read back as one token, with exactly what follows
it left over. A text may be followed by anything. A numeral ends at the first character that no
numeral consists of.
-/

namespace KeyedQuery

namespace Json

/-! ## Texts -/

theorem joinMarks_unit {n : Nat} (h : n < 0x20) (marks : List Mark) :
    joinMarks (.unit n :: marks) = (joinMarks marks).map (Char.ofNat n :: ·) := by
  have hleading : isLeading n = false := by
    simp [isLeading]
    omega
  have htrailing : isTrailing n = false := by
    simp [isTrailing]
    omega
  match marks with
  | [] => simp [joinMarks, hleading, htrailing]
  | .char c :: marks => simp [joinMarks, hleading, htrailing]
  | .unit m :: marks => simp [joinMarks, hleading, htrailing]

theorem hexUnit?_hexDigit {n : Nat} (h : n < 0x20) :
    hexUnit? '0' '0' (hexDigit (n / 16)) (hexDigit (n % 16)) = some n := by
  revert n
  decide

theorem readMarks_letter {c e : Char} (hunit : e ≠ 'u') (h : unescape? e = some c)
    (cs : List Char) :
    readMarks ('\\' :: e :: cs) = (readMarks cs).map (Prod.map (.char c :: ·) id) := by
  rw [readMarks]
  · rw [h]
    cases readMarks cs <;> rfl
  · exact fun _ _ _ _ _ hu _ => hunit hu

theorem readMarks_unit {n : Nat} (h : n < 0x20) (cs : List Char) :
    readMarks ('\\' :: 'u' :: '0' :: '0' :: hexDigit (n / 16) :: hexDigit (n % 16) :: cs) =
      (readMarks cs).map (Prod.map (.unit n :: ·) id) := by
  rw [readMarks, hexUnit?_hexDigit h]
  cases readMarks cs <;> rfl

theorem readMarks_plain {c : Char} (hquote : c ≠ '"') (hslash : c ≠ '\\') (h : ¬ c.toNat < 0x20)
    (cs : List Char) : readMarks (c :: cs) = (readMarks cs).map (Prod.map (.char c :: ·) id) := by
  rw [readMarks]
  · rw [if_neg (by simp [hslash, h])]
    cases readMarks cs <;> rfl
  · exact hquote
  · exact fun _ _ _ _ _ hc _ => hslash hc
  · exact fun _ _ hc _ => hslash hc

/-- The escape of a character is read as one mark, which stands for the character. -/
theorem exists_mark (c : Char) :
    ∃ m, (∀ cs, readMarks (escapeChar c ++ cs) = (readMarks cs).map (Prod.map (m :: ·) id)) ∧
      ∀ marks, joinMarks (m :: marks) = (joinMarks marks).map (c :: ·) := by
  have hletter : ∀ e, e ≠ 'u' → unescape? e = some c → escapeChar c = ['\\', e] →
      ∃ m, (∀ cs, readMarks (escapeChar c ++ cs) = (readMarks cs).map (Prod.map (m :: ·) id)) ∧
        ∀ marks, joinMarks (m :: marks) = (joinMarks marks).map (c :: ·) :=
    fun e hunit he hc => ⟨.char c, fun cs => by rw [hc]; exact readMarks_letter hunit he cs,
      fun _ => rfl⟩
  by_cases hquote : c = '"'
  · subst hquote
    exact hletter '"' (by decide) rfl rfl
  by_cases hslash : c = '\\'
  · subst hslash
    exact hletter '\\' (by decide) rfl rfl
  by_cases hb : c = '\x08'
  · subst hb
    exact hletter 'b' (by decide) rfl rfl
  by_cases ht : c = '\t'
  · subst ht
    exact hletter 't' (by decide) rfl rfl
  by_cases hn : c = '\n'
  · subst hn
    exact hletter 'n' (by decide) rfl rfl
  by_cases hf : c = '\x0c'
  · subst hf
    exact hletter 'f' (by decide) rfl rfl
  by_cases hr : c = '\r'
  · subst hr
    exact hletter 'r' (by decide) rfl rfl
  by_cases hcontrol : c.toNat < 0x20
  · refine ⟨.unit c.toNat, fun cs => ?_, fun marks => ?_⟩
    · rw [← readMarks_unit hcontrol]
      simp [escapeChar, hquote, hslash, hb, ht, hn, hf, hr, hcontrol]
    · rw [joinMarks_unit hcontrol, Char.ofNat_toNat]
  · refine ⟨.char c, fun cs => ?_, fun _ => rfl⟩
    rw [← readMarks_plain hquote hslash hcontrol]
    simp [escapeChar, hquote, hslash, hb, ht, hn, hf, hr, hcontrol]

/-- A text is read back from its escapes, up to its closing quote. -/
theorem readText?_quote (text : String) (rest : List Char) :
    readText? (text.toList.flatMap escapeChar ++ '"' :: rest) = some (text, rest) := by
  have hmarks : ∀ cs : List Char, ∃ marks,
      readMarks (cs.flatMap escapeChar ++ '"' :: rest) = some (marks, rest) ∧
        joinMarks marks = some cs := by
    intro cs
    induction cs with
    | nil => exact ⟨[], by simp [readMarks], rfl⟩
    | cons c cs ih =>
        obtain ⟨marks, hread, hjoin⟩ := ih
        obtain ⟨m, hm, hc⟩ := exists_mark c
        refine ⟨m :: marks, ?_, ?_⟩
        · rw [List.flatMap_cons, List.append_assoc, hm, hread]
          rfl
        · rw [hc, hjoin]
          rfl
  obtain ⟨marks, hread, hjoin⟩ := hmarks text.toList
  simp [readText?, hread, hjoin]

/-! ## Integers -/

/-- The decimal text of a positive number does not start with a zero. -/
theorem head?_toDigits {n : Nat} (h : n ≠ 0) : (Nat.toDigits 10 n).head? ≠ some '0' := by
  induction n using Nat.strongRecOn with
  | ind n ih =>
      by_cases hn : n < 10
      · have hdigit : ∀ d < 10, d ≠ 0 → Nat.digitChar d ≠ '0' := by decide
        rw [Nat.toDigits_of_lt_base hn, List.head?_cons, Ne, Option.some.injEq]
        exact hdigit n hn h
      · have hhead := ih (n / 10) (by omega) (by omega)
        rw [Nat.toDigits_of_base_le (by decide) (by omega), List.head?_append]
        obtain ⟨c, cs, hcs⟩ :=
          List.exists_cons_of_ne_nil (Nat.toDigits_ne_nil (b := 10) (n := n / 10))
        rwa [hcs] at hhead ⊢

theorem scan_toDigits (n : Nat) :
    Numeral.scan (Nat.toDigits 10 n) = some ⟨Nat.toDigits 10 n, none, none⟩ := by
  have hall : ∀ c ∈ Nat.toDigits 10 n, c.isDigit = true := fun _ => Numeral.isDigit_of_mem_toDigits
  have hrest : (Nat.toDigits 10 n).dropWhile Char.isDigit = [] := List.dropWhile_eq_nil_iff.2 hall
  have hwhole : (Nat.toDigits 10 n).takeWhile Char.isDigit = Nat.toDigits 10 n :=
    List.takeWhile_eq_self_iff.2 hall
  rw [Numeral.scan, hrest, hwhole]
  rfl

theorem isJsonNumeral_toDigits (n : Nat) :
    isJsonNumeral ⟨Nat.toDigits 10 n, none, none⟩ = true := by
  rcases eq_or_ne n 0 with rfl | h
  · decide
  · simp [isJsonNumeral, Nat.toDigits_ne_nil, head?_toDigits h]

theorem ofParts?_toDigits (negative : Bool) (m : Nat) {n : Int}
    (hn : n = if negative then -(m : Int) else m) (hzero : n ≠ 0 ∨ negative = false)
    (h : -9223372036854775808 ≤ n ∧ n < 18446744073709551616) :
    Number.ofParts? negative ⟨Nat.toDigits 10 m, none, none⟩ = some (.int n h) := by
  have hdigits : (Numeral.Parts.value ⟨Nat.toDigits 10 m, none, none⟩).digits = m := by
    simp [Numeral.Parts.value, Nat.ofDigitChars_ten_toDigits]
  subst hn
  unfold Number.ofParts?
  simp only [hdigits]
  rw [dif_pos ⟨trivial, trivial, hzero, h⟩]

theorem Number.read?_ofInt {n : Int} (h : -9223372036854775808 ≤ n ∧ n < 18446744073709551616) :
    Number.read? (Numeral.ofInt n).toList = some (.int n h) := by
  rw [Numeral.toList_ofInt]
  split
  · next hn =>
      rw [List.singleton_append, Number.read?, scan_toDigits, Option.bind_some,
        if_pos (isJsonNumeral_toDigits _)]
      exact ofParts?_toDigits true n.natAbs (by rw [if_pos rfl]; omega) (.inl (by omega)) h
  · next hn =>
      rw [List.nil_append, Number.read?, scan_toDigits, Option.bind_some,
        if_pos (isJsonNumeral_toDigits _)]
      · exact ofParts?_toDigits false n.natAbs (by rw [if_neg nofun]; omega) (.inr rfl) h
      · intro cs hminus
        have hdigit := Numeral.isDigit_of_mem_toDigits (n := n.natAbs) (c := '-') (by simp [hminus])
        exact absurd hdigit (by decide)

/-- The decimal text of an integer starts with a digit or a minus sign, and only digits follow. -/
theorem exists_ofInt (n : Int) : ∃ c cs, (Numeral.ofInt n).toList = c :: cs ∧
    (c.isDigit = true ∨ c = '-') ∧ ∀ d ∈ cs, d.isDigit = true := by
  rw [Numeral.toList_ofInt]
  split
  · exact ⟨'-', _, rfl, .inr rfl, fun d hd => Numeral.isDigit_of_mem_toDigits hd⟩
  · obtain ⟨c, cs, hcs⟩ := List.exists_cons_of_ne_nil
      (Nat.toDigits_ne_nil (b := 10) (n := n.natAbs))
    refine ⟨c, cs, hcs, .inl ?_, fun d hd => ?_⟩
    · exact Numeral.isDigit_of_mem_toDigits (n := n.natAbs) (by simp [hcs])
    · exact Numeral.isDigit_of_mem_toDigits (n := n.natAbs) (by simp [hcs, hd])

/-! ## Tokens -/

theorem tokenize_nil : tokenize [] = some [] := by
  rw [tokenize]
  rfl

/-- A token that no blank stands before is read first. -/
theorem tokenize_cons {c : Char} {tail rest : List Char} {t : Token} (hgap : isGap c = false)
    (hread : Token.read? c tail = some (t, rest)) :
    tokenize (c :: tail) = (tokenize rest).map (t :: ·) := by
  have hdrop : (c :: tail).dropWhile isGap = c :: tail :=
    List.dropWhile_cons_of_neg (by simp [hgap])
  rw [tokenize]
  split
  · next hnil =>
      rw [hdrop] at hnil
      cases hnil
  · next c' tail' hcons =>
      rw [hdrop] at hcons
      obtain ⟨rfl, rfl⟩ := List.cons.inj hcons
      split
      · next hnone =>
          rw [hread] at hnone
          cases hnone
      · next t' rest' hsome =>
          rw [hread] at hsome
          obtain ⟨rfl, rfl⟩ := Prod.mk.inj (Option.some.inj hsome)
          rfl

theorem tokenize_null (rest : List Char) :
    tokenize ((render null).toList ++ rest) = (tokenize rest).map (.scalar null :: ·) := by
  have hchars : (render null).toList ++ rest = 'n' :: ['u', 'l', 'l'] ++ rest := by simp [render]
  rw [hchars]
  exact tokenize_cons (by decide) (by simp [Token.read?])

theorem tokenize_bool (b : Bool) (rest : List Char) :
    tokenize ((render (bool b)).toList ++ rest) = (tokenize rest).map (.scalar (bool b) :: ·) := by
  have hchars : (render (bool b)).toList ++ rest =
      (if b then 't' :: ['r', 'u', 'e'] else 'f' :: ['a', 'l', 's', 'e']) ++ rest := by
    cases b <;> simp [render]
  rw [hchars]
  cases b <;> exact tokenize_cons (by decide) (by simp [Token.read?])

/-- No character follows that a numeral could consist of. -/
def EndsNumeral (rest : List Char) : Prop := ∀ c ∈ rest.head?, isNumberChar c = false

theorem tokenize_text (text : String) (rest : List Char) :
    tokenize ((quote text).toList ++ rest) = (tokenize rest).map (.text text :: ·) := by
  have hchars : (quote text).toList ++ rest =
      '"' :: (text.toList.flatMap escapeChar ++ '"' :: rest) := by
    simp [quote]
  have hread : Token.read? '"' (text.toList.flatMap escapeChar ++ '"' :: rest) =
      some (.text text, rest) := by
    simp [Token.read?, readText?_quote]
  rw [hchars, tokenize_cons (by decide) hread]

theorem EndsNumeral.span {cs rest : List Char} (hcs : ∀ c ∈ cs, isNumberChar c = true)
    (hrest : EndsNumeral rest) :
    (cs ++ rest).takeWhile isNumberChar = cs ∧ (cs ++ rest).dropWhile isNumberChar = rest := by
  rw [List.takeWhile_append_of_pos hcs, List.dropWhile_append_of_pos hcs]
  cases rest with
  | nil => simp
  | cons d rest => simp [hrest d rfl]

/-- The characters that stand in front of a token that is no numeral, and the blanks. -/
def otherStarts : List Char :=
  ['[', ']', '\x7b', '\x7d', ',', ':', '"', 't', 'f', 'n', ' ', '\t', '\n', '\r']

theorem ne_of_mem_otherStarts {c d : Char} (hc : c.isDigit = true ∨ c = '-')
    (hd : d ∈ otherStarts) : c ≠ d := by
  have hall : otherStarts.all (fun d => !d.isDigit && d != '-') = true := by decide
  rintro rfl
  have hc' := List.all_eq_true.1 hall c hd
  rcases hc with hdigit | rfl
  · simp [hdigit] at hc'
  · cases hc'

theorem tokenize_ofInt {n : Int} (h : -9223372036854775808 ≤ n ∧ n < 18446744073709551616)
    {rest : List Char} (hrest : EndsNumeral rest) :
    tokenize ((Numeral.ofInt n).toList ++ rest) =
      (tokenize rest).map (.scalar (.num (.int n h)) :: ·) := by
  obtain ⟨c, cs, hchars, hc, hcs⟩ := exists_ofInt n
  have hnumeral : ∀ d ∈ cs, isNumberChar d = true := fun d hd => by simp [isNumberChar, hcs d hd]
  obtain ⟨htake, hdrop⟩ := hrest.span hnumeral
  have hother : ∀ d ∈ otherStarts, c ≠ d := fun d hd => ne_of_mem_otherStarts hc hd
  simp only [otherStarts, List.forall_mem_cons] at hother
  have hgap : isGap c = false := by simp [isGap, hother]
  have hread : Token.read? c (cs ++ rest) = some (.scalar (.num (.int n h)), rest) := by
    have hnumber := Number.read?_ofInt h
    rw [hchars] at hnumber
    simp [Token.read?, hother, htake, hdrop, hnumber]
  rw [hchars, List.cons_append, tokenize_cons hgap hread]

end Json

end KeyedQuery
