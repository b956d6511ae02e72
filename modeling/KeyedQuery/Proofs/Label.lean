import KeyedQuery.Identifier
import Mathlib.Data.List.Basic
import Mathlib.Data.List.TakeWhile

/-!
# Written labels

The characters of names and labels are no blanks, so that a name, and a name followed by its label
in parentheses, are read as they are written.
-/

namespace KeyedQuery

namespace Text

variable {p : Char → Bool} {c : Char} {cs tail : List Char}

theorem takeWhile_append_cons (hcs : ∀ d ∈ cs, p d = true) (hc : p c = false) :
    (cs ++ c :: tail).takeWhile p = cs := by
  rw [List.takeWhile_append_of_pos hcs, List.takeWhile_cons_of_neg (by simp [hc]), List.append_nil]

theorem dropWhile_append_cons (hcs : ∀ d ∈ cs, p d = true) (hc : p c = false) :
    (cs ++ c :: tail).dropWhile p = c :: tail := by
  rw [List.dropWhile_append_of_pos hcs, List.dropWhile_cons_of_neg (by simp [hc])]

theorem trimStartChars_eq_self (h : ∀ c ∈ cs.head?, isBlank c = false) :
    trimStartChars cs = cs := by
  cases cs with
  | nil => rfl
  | cons c cs => exact List.dropWhile_cons_of_neg (by simp [h c rfl])

theorem trimChars_eq_self (hhead : ∀ c ∈ cs.head?, isBlank c = false)
    (hlast : ∀ c ∈ cs.getLast?, isBlank c = false) : trimChars cs = cs := by
  have hreverse : trimStartChars cs.reverse = cs.reverse :=
    trimStartChars_eq_self (by rwa [List.head?_reverse])
  rw [trimStartChars] at hreverse
  rw [trimChars, trimStartChars_eq_self hhead, trimEndChars, hreverse, List.reverse_reverse]

theorem trimChars_of_not_blank (h : ∀ c ∈ cs, isBlank c = false) : trimChars cs = cs :=
  trimChars_eq_self (fun c hc => h c (List.mem_of_mem_head? hc))
    fun c hc => h c (List.mem_of_mem_getLast? hc)

/-- A word between blanks is what remains of a text that is trimmed. -/
theorem trimChars_padded {before after : List Char}
    (hbefore : ∀ c ∈ before, isBlank c = true) (hafter : ∀ c ∈ after, isBlank c = true)
    (hcs : ∀ c ∈ cs, isBlank c = false) (hne : cs ≠ []) :
    trimChars (before ++ cs ++ after) = cs := by
  have hstart : trimStartChars (before ++ cs ++ after) = cs ++ after := by
    rw [List.append_assoc, trimStartChars, List.dropWhile_append_of_pos hbefore]
    refine trimStartChars_eq_self fun c hc => hcs c ?_
    rw [List.head?_append_of_ne_nil _ hne] at hc
    exact List.mem_of_mem_head? hc
  have hend : trimStartChars (cs ++ after).reverse = cs.reverse := by
    rw [List.reverse_append, trimStartChars, List.dropWhile_append_of_pos (by simpa using hafter)]
    exact trimStartChars_eq_self fun c hc => hcs c (List.mem_reverse.1 (List.mem_of_mem_head? hc))
  rw [trimStartChars] at hend
  rw [trimChars, hstart, trimEndChars, hend, List.reverse_reverse]

/-- A text is what remains when it is trimmed, between blanks. -/
theorem exists_padding (cs : List Char) :
    ∃ before after, cs = before ++ trimChars cs ++ after ∧ (∀ c ∈ before, isBlank c = true) ∧
      ∀ c ∈ after, isBlank c = true := by
  have hend := List.takeWhile_append_dropWhile (p := isBlank) (l := (trimStartChars cs).reverse)
  refine ⟨cs.takeWhile isBlank, ((trimStartChars cs).reverse.takeWhile isBlank).reverse, ?_,
    fun c => List.mem_takeWhile_imp, fun c hc => List.mem_takeWhile_imp (List.mem_reverse.1 hc)⟩
  rw [trimChars, trimEndChars, List.append_assoc, ← List.reverse_append, hend, List.reverse_reverse,
    trimStartChars, List.takeWhile_append_dropWhile]

theorem trimChars_trimChars (cs : List Char) : trimChars (trimChars cs) = trimChars cs := by
  have hsplit := List.takeWhile_append_dropWhile (p := isBlank) (l := (trimStartChars cs).reverse)
  refine trimChars_eq_self (fun c hc => ?_) fun c hc => ?_
  · refine isBlank_head_trimStartChars cs c ?_
    rw [← List.reverse_reverse (trimStartChars cs), ← hsplit, List.reverse_append]
    exact List.mem_head?_append_of_mem_head? hc
  · have hnot := List.head?_dropWhile_not isBlank (trimStartChars cs).reverse
    rw [trimChars, trimEndChars, List.getLast?_reverse, Option.mem_def] at hc
    rw [hc] at hnot
    simpa using hnot

/-- Two words that differ in more than case are not both one word. -/
theorem sameLetterChars_apart {word first second : List Char}
    (h : sameLetterChars first second = false) (hfirst : sameLetterChars word first = true) :
    sameLetterChars word second = false := by
  rw [sameLetterChars_eq_true_iff] at hfirst
  rwa [sameLetterChars, hfirst]

end Text

namespace Label

variable {c : Char} {name label : String} {label? : Option String}

def text (name : String) : Option String → String
  | none => name
  | some label => name ++ "(" ++ label ++ ")"

def isName (name : String) : Bool :=
  !name.toList.isEmpty && name.toList.all isNameChar

/-- Whether a text can name what is selected: a name, or one behind the marker of raw columns. -/
def isMarkedName (name : String) : Bool := isName (Identifier.splitMarker name).2

def isLabel (label : String) : Bool :=
  !label.toList.isEmpty && label.toList.all isChar

theorem isNameChar_of_isChar (h : isChar c = true) : isNameChar c = true := by
  simp [isNameChar, h]

theorem toNat_lt_of_isAlphanum (h : c.isAlphanum = true) : c.toNat < 128 := by
  have hrange : ((decide (c.val ≥ 'A'.val ∧ c.val ≤ 'Z'.val) ||
      decide (c.val ≥ 'a'.val) && decide (c.val ≤ 'z'.val)) ||
        decide (c.val ≥ '0'.val) && decide (c.val ≤ '9'.val)) = true := h
  simp only [Bool.or_eq_true, Bool.and_eq_true, decide_eq_true_eq, ge_iff_le,
    UInt32.le_iff_toNat_le] at hrange
  have hZ : 'Z'.val.toNat = 90 := rfl
  have hz : 'z'.val.toNat = 122 := rfl
  have h9 : '9'.val.toNat = 57 := rfl
  have hc : c.toNat = c.val.toNat := rfl
  omega

theorem toNat_lt_of_isNameChar (h : isNameChar c = true) : c.toNat < 128 := by
  simp only [isNameChar, isChar, Bool.or_eq_true, beq_iff_eq] at h
  rcases h with ((h | rfl) | rfl) | rfl
  · exact toNat_lt_of_isAlphanum h
  · decide
  · decide
  · decide

/-- The characters of names are few enough to be looked through one by one. -/
theorem of_isNameChar {P : Char → Prop}
    (hP : ∀ n < 128, isNameChar (Char.ofNat n) = true → P (Char.ofNat n))
    (h : isNameChar c = true) : P c := by
  have hc := hP c.toNat (toNat_lt_of_isNameChar h)
  rw [Char.ofNat_toNat] at hc
  exact hc h

theorem isBlank_of_isNameChar (h : isNameChar c = true) : Text.isBlank c = false :=
  of_isNameChar (P := fun c => Text.isBlank c = false) (by decide +kernel) h

theorem ne_of_isNameChar {d : Char} (hd : isNameChar d = false) (h : isNameChar c = true) :
    c ≠ d := by
  rintro rfl
  rw [h] at hd
  exact absurd hd (by decide)

theorem isName_iff :
    isName name = true ↔ name.toList ≠ [] ∧ ∀ c ∈ name.toList, isNameChar c = true := by
  simp [isName]

theorem isLabel_iff :
    isLabel label = true ↔ label.toList ≠ [] ∧ ∀ c ∈ label.toList, isChar c = true := by
  simp [isLabel]

theorem isMarkedName_iff : isMarkedName name = true ↔ ∃ marker cs,
    (marker = [] ∨ marker = ['#']) ∧ name.toList = marker ++ cs ∧ cs ≠ [] ∧
      ∀ c ∈ cs, isNameChar c = true := by
  have hmarker : isNameChar '#' = false := by decide
  rw [isMarkedName, Identifier.splitMarker]
  split
  · next rest hrest =>
      rw [isName_iff, String.toList_ofList]
      constructor
      · rintro ⟨hne, hchars⟩
        exact ⟨['#'], rest, .inr rfl, hrest, hne, hchars⟩
      · rintro ⟨marker, cs, rfl | rfl, hname, hne, hchars⟩
        · rw [hrest, List.nil_append] at hname
          rw [hchars '#' (hname ▸ List.mem_cons_self)] at hmarker
          exact absurd hmarker (by decide)
        · rw [hrest] at hname
          obtain rfl : rest = cs := (List.cons.inj hname).2
          exact ⟨hne, hchars⟩
  · next hno =>
      rw [isName_iff]
      constructor
      · rintro ⟨hne, hchars⟩
        exact ⟨[], name.toList, .inl rfl, rfl, hne, hchars⟩
      · rintro ⟨marker, cs, rfl | rfl, hname, hne, hchars⟩
        · rw [hname]
          exact ⟨hne, hchars⟩
        · exact absurd hname (hno cs)

theorem isMarkedName_of_isName (h : isName name = true) : isMarkedName name = true := by
  obtain ⟨hne, hchars⟩ := isName_iff.1 h
  exact isMarkedName_iff.2 ⟨[], name.toList, .inl rfl, rfl, hne, hchars⟩

theorem isBlank_of_mem_label (h : isLabel label = true) :
    ∀ c ∈ label.toList, Text.isBlank c = false :=
  fun c hc => isBlank_of_isNameChar (isNameChar_of_isChar ((isLabel_iff.1 h).2 c hc))

theorem isBlank_of_mem_name (h : isMarkedName name = true) :
    ∀ c ∈ name.toList, Text.isBlank c = false := by
  obtain ⟨marker, cs, hmarker, hname, -, hcs⟩ := isMarkedName_iff.1 h
  intro c hc
  rw [hname, List.mem_append] at hc
  rcases hc with hc | hc
  · rcases hmarker with rfl | rfl
    · simp at hc
    · rw [List.mem_singleton.1 hc]
      decide
  · exact isBlank_of_isNameChar (hcs c hc)

theorem isBlank_of_mem_text (hname : isMarkedName name = true)
    (hlabel : ∀ l ∈ label?, isLabel l = true) :
    ∀ c ∈ (text name label?).toList, Text.isBlank c = false := by
  cases label? with
  | none => exact isBlank_of_mem_name hname
  | some label =>
      intro c hc
      simp only [text, String.toList_append, List.mem_append] at hc
      rcases hc with ((hc | hc) | hc) | hc
      · exact isBlank_of_mem_name hname c hc
      · obtain rfl : c = '(' := by simpa using hc
        decide
      · exact isBlank_of_mem_label (hlabel label rfl) c hc
      · obtain rfl : c = ')' := by simpa using hc
        decide

/-! ## Reading what is written -/

section Split

variable {marker cs tail : List Char}

theorem splitBehind?_labelled {blanks : List Char} (hne : cs ≠ [])
    (hcs : ∀ c ∈ cs, isNameChar c = true) (hblanks : ∀ b ∈ blanks, Text.isBlank b = true)
    (hlabel : isLabel label = true) :
    splitBehind? marker (cs ++ (blanks ++ '(' :: (label.toList ++ [')']))) =
      some (String.ofList (marker ++ cs), label) := by
  obtain ⟨hlabelNe, hchars⟩ := isLabel_iff.1 hlabel
  have htake : (label.toList ++ [')']).takeWhile isChar = label.toList :=
    Text.takeWhile_append_cons hchars (by decide)
  have hdrop : (label.toList ++ [')']).dropWhile isChar = [')'] :=
    Text.dropWhile_append_cons hchars (by decide)
  obtain ⟨next, rest, hrest, hnext⟩ : ∃ next rest,
      blanks ++ '(' :: (label.toList ++ [')']) = next :: rest ∧ isNameChar next = false := by
    cases blanks with
    | nil => exact ⟨_, _, rfl, by decide⟩
    | cons b blanks =>
        refine ⟨b, _, rfl, Bool.eq_false_iff.2 fun hb => ?_⟩
        have hblank := hblanks b List.mem_cons_self
        rw [isBlank_of_isNameChar hb] at hblank
        cases hblank
  have hbehind : (blanks ++ '(' :: (label.toList ++ [')'])).dropWhile Text.isBlank =
      '(' :: (label.toList ++ [')']) := Text.dropWhile_append_cons hblanks (by decide)
  rw [hrest] at hbehind ⊢
  rw [splitBehind?, Text.takeWhile_append_cons hcs hnext, Text.dropWhile_append_cons hcs hnext,
    hbehind]
  simp only [htake, hdrop]
  rw [if_pos ⟨hne, hlabelNe, trivial⟩, String.ofList_toList]

theorem splitBehind?_name (hcs : ∀ c ∈ cs, isNameChar c = true) :
    splitBehind? marker cs = none := by
  rw [splitBehind?, List.dropWhile_eq_nil_iff.2 hcs]
  rfl

theorem split?_eq_splitBehind? {s : String} (hmarker : marker = [] ∨ marker = ['#'])
    (hne : cs ≠ []) (hcs : ∀ c ∈ cs, isNameChar c = true)
    (hs : Text.trimChars s.toList = marker ++ (cs ++ tail)) :
    split? s = splitBehind? marker (cs ++ tail) := by
  rw [split?, hs]
  rcases hmarker with rfl | rfl
  · obtain ⟨c, cs, rfl⟩ := List.exists_cons_of_ne_nil hne
    have hc : c ≠ '#' := ne_of_isNameChar (by decide) (hcs c List.mem_cons_self)
    simp only [List.nil_append, List.cons_append]
    split
    · next h => exact absurd (List.cons.inj h).1 hc
    · rfl
  · rfl

end Split

/-- A name and the label in parentheses behind it are read as they are written. -/
theorem split?_text (hname : isMarkedName name = true) (hlabel : ∀ l ∈ label?, isLabel l = true) :
    split? (text name label?) = label?.map fun label => (name, label) := by
  obtain ⟨marker, cs, hmarker, hcs, hne, hchars⟩ := isMarkedName_iff.1 hname
  have htrim := Text.trimChars_of_not_blank (isBlank_of_mem_text hname hlabel)
  cases label? with
  | none =>
      have htext : name.toList = marker ++ (cs ++ []) := by rw [List.append_nil, hcs]
      rw [split?_eq_splitBehind? hmarker hne hchars (htrim.trans htext), List.append_nil,
        splitBehind?_name hchars, Option.map_none]
  | some label =>
      have htext : (text name (some label)).toList =
          marker ++ (cs ++ ([] ++ '(' :: (label.toList ++ [')']))) := by
        simp [text, hcs]
      rw [split?_eq_splitBehind? hmarker hne hchars (htrim.trans htext),
        splitBehind?_labelled hne hchars (List.forall_mem_nil _) (hlabel label rfl), ← hcs,
        String.ofList_toList, Option.map_some]

theorem text_ne_empty (hname : isName name = true) : text name label? ≠ "" := by
  have hne : name ≠ "" := by simpa using (isName_iff.1 hname).1
  cases label? with
  | none => exact hne
  | some label => simp [text]

theorem trim_text (hname : isMarkedName name = true) (hlabel : ∀ l ∈ label?, isLabel l = true) :
    Text.trim (text name label?) = text name label? := by
  rw [Text.trim, Text.trimChars_of_not_blank (isBlank_of_mem_text hname hlabel),
    String.ofList_toList]

end Label

end KeyedQuery
