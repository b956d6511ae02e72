import KeyedQuery.Proofs.Canonical.Clause

/-!
# Texts of order items

An item is a column and perhaps a direction, written in ASCII letters of any case. It is read under
simple case folding, which takes two characters outside ASCII for letters: the long s and the Kelvin
sign. So the texts that are read are the written ones exactly as long as none of the two occurs. In
a column either is kept as it is, and a direction with a long s is dropped.
-/

namespace KeyedQuery

namespace Text

/-- Whether a character outside ASCII folds onto an ASCII letter. -/
def foldsFromOutside (c : Char) : Bool := c == '\u017f' || c == '\u212a'

variable {c : Char} {P : Char → Prop}

theorem of_foldsFromOutside (hs : P '\u017f') (hk : P '\u212a') (h : foldsFromOutside c = true) :
    P c := by
  simp only [foldsFromOutside, Bool.or_eq_true, beq_iff_eq] at h
  rcases h with rfl | rfl
  · exact hs
  · exact hk

theorem fold_of_inside (h : foldsFromOutside c = false) : fold c = c.toLower := by
  simp only [foldsFromOutside, Bool.or_eq_false_iff, beq_eq_false_iff_ne] at h
  rw [fold, if_neg h.1, if_neg h.2]

theorem map_fold_of_inside {cs : List Char} (h : ∀ c ∈ cs, foldsFromOutside c = false) :
    cs.map fold = cs.map Char.toLower :=
  List.map_congr_left fun c hc => fold_of_inside (h c hc)

theorem inside_of_sameLetterChars {cs ds : List Char} (h : sameLetterChars cs ds = true)
    (hds : '\u017f' ∉ ds.map Char.toLower ∧ '\u212a' ∉ ds.map Char.toLower) :
    ∀ c ∈ cs, foldsFromOutside c = false := by
  intro c hc
  rw [sameLetterChars_eq_true_iff] at h
  have hmem : c.toLower ∈ ds.map Char.toLower := h ▸ List.mem_map_of_mem hc
  by_contra hout
  exact of_foldsFromOutside (P := fun c => c.toLower ∉ ds.map Char.toLower) hds.1 hds.2
    (eq_true_of_ne_false hout) hmem

end Text

namespace Label

theorem isNameChar_toLower (c : Char) : isNameChar c.toLower = isNameChar c := by
  by_cases hc : c.isUpper = true
  · have halpha : c.isAlpha = true := Bool.or_eq_true_iff.2 (.inl hc)
    have hname : isNameChar c = true := by
      simp [isNameChar, isChar, Char.isAlphanum, halpha]
    rw [hname]
    exact of_isNameChar (P := fun c => isNameChar c.toLower = true) (by decide +kernel) hname
  · have hlower : c.toLower = c := by
      unfold Char.toLower
      exact dif_neg fun h => hc (decide_eq_true h)
    rw [hlower]

end Label

/-! ## Directions -/

namespace Direction

/-- A word that is a direction in any case of ASCII letters. -/
def IsNamed (word : List Char) (direction : Option Direction) : Prop :=
  ∃ d : Direction, Text.sameLetterChars word d.keyword.toList = true ∧ direction = some d

/-- A word that folds onto a direction. What it comes to is that direction, or none if the word has
a long s. -/
def IsRead (word : List Char) (direction : Option Direction) : Prop :=
  ∃ d : Direction, word.map Text.fold = d.keyword.toList.map Char.toLower ∧
    direction = if '\u017f' ∈ word then none else some d

variable {word : List Char} {direction : Option Direction} {d : Direction}

theorem isWord_iff :
    isWord word = true ↔
      ∃ d : Direction, word.map Text.fold = d.keyword.toList.map Char.toLower := by
  have hasc : ascending.keyword.toList.map Char.toLower = ['a', 's', 'c'] := rfl
  have hdesc : descending.keyword.toList.map Char.toLower = ['d', 'e', 's', 'c'] := rfl
  simp only [isWord, Bool.or_eq_true, beq_iff_eq]
  constructor
  · rintro (h | h)
    · exact ⟨ascending, h.trans hasc.symm⟩
    · exact ⟨descending, h.trans hdesc.symm⟩
  · rintro ⟨_ | _, h⟩
    · exact .inl (h.trans hasc)
    · exact .inr (h.trans hdesc)

theorem read?_eq_some_iff :
    read? (String.ofList word) = some d ↔ Text.sameLetterChars word d.keyword.toList = true := by
  have hasc : Text.sameLetters (String.ofList word) "asc" =
      Text.sameLetterChars word ascending.keyword.toList := by
    have hletters : "asc".toList.map Char.toLower = ascending.keyword.toList.map Char.toLower := by
      decide
    rw [Text.sameLetters, String.toList_ofList, Text.sameLetterChars, hletters,
      Text.sameLetterChars]
  have hdesc : Text.sameLetters (String.ofList word) "desc" =
      Text.sameLetterChars word descending.keyword.toList := by
    have hletters : "desc".toList.map Char.toLower =
        descending.keyword.toList.map Char.toLower := by
      decide
    rw [Text.sameLetters, String.toList_ofList, Text.sameLetterChars, hletters,
      Text.sameLetterChars]
  have hapart (h : Text.sameLetterChars word ascending.keyword.toList = true) :
      Text.sameLetterChars word descending.keyword.toList = false :=
    Text.sameLetterChars_apart (by decide) h
  rw [read?, hasc, hdesc]
  cases d with
  | ascending =>
      split
      · next h => simp [h]
      · next h => split <;> simp [h]
  | descending =>
      split
      · next h => simp [hapart h]
      · simp

theorem not_mem_keyword (d : Direction) :
    '\u017f' ∉ d.keyword.toList.map Char.toLower ∧
      '\u212a' ∉ d.keyword.toList.map Char.toLower := by
  cases d <;> decide

/-- The Kelvin sign folds onto a letter of no direction. -/
theorem inside_of_map_fold (h : word.map Text.fold = d.keyword.toList.map Char.toLower)
    (hs : '\u017f' ∉ word) : ∀ c ∈ word, Text.foldsFromOutside c = false := by
  intro c hc
  have hmem : Text.fold c ∈ d.keyword.toList.map Char.toLower := h ▸ List.mem_map_of_mem hc
  simp only [Text.foldsFromOutside, Bool.or_eq_false_iff, beq_eq_false_iff_ne]
  refine ⟨fun heq => hs (heq ▸ hc), ?_⟩
  rintro rfl
  cases d <;> exact absurd hmem (by decide)

theorem isRead_iff :
    IsRead word direction ↔ isWord word = true ∧ read? (String.ofList word) = direction := by
  have hread (d : Direction) (h : word.map Text.fold = d.keyword.toList.map Char.toLower) :
      read? (String.ofList word) = if '\u017f' ∈ word then none else some d := by
    split
    · next hs =>
        rw [Option.eq_none_iff_forall_ne_some]
        intro d hd
        have hinside := Text.inside_of_sameLetterChars (read?_eq_some_iff.1 hd) d.not_mem_keyword
        exact absurd (hinside _ hs) (by decide)
    · next hs =>
        rw [read?_eq_some_iff, Text.sameLetterChars_eq_true_iff,
          ← Text.map_fold_of_inside (inside_of_map_fold h hs), h]
  rw [isWord_iff]
  constructor
  · rintro ⟨d, hd, rfl⟩
    exact ⟨⟨d, hd⟩, hread d hd⟩
  · rintro ⟨⟨d, hd⟩, rfl⟩
    exact ⟨d, hd, hread d hd⟩

theorem isRead_iff_isNamed (h : ∀ c ∈ word, Text.foldsFromOutside c = false) :
    IsRead word direction ↔ IsNamed word direction := by
  have hs : '\u017f' ∉ word := fun hs => absurd (h _ hs) (by decide)
  simp only [IsRead, IsNamed, if_neg hs, Text.map_fold_of_inside h,
    Text.sameLetterChars_eq_true_iff]

end Direction

/-! ## Items -/

namespace OrderItem

/-- The texts of items, over the characters of columns and what direction words come to: a column,
alone or in front of one or more blanks and a direction word. Both are parameters, so that the
grammar under folding and the one in ASCII are compared by the one lemma `IsWritten.imp`. -/
inductive IsWritten (isChar : Char → Bool) (comesTo : List Char → Option Direction → Prop) :
    OrderItem → List Char → Prop
  | plain {name : List Char} (hne : name ≠ []) (hname : ∀ c ∈ name, isChar c = true) :
      IsWritten isChar comesTo (column (String.ofList name) none) name
  | directed {name blanks word : List Char} {direction : Option Direction} (hne : name ≠ [])
      (hname : ∀ c ∈ name, isChar c = true) (hblanks : blanks ≠ [])
      (hblank : ∀ b ∈ blanks, Text.isBlank b = true) (hword : comesTo word direction) :
      IsWritten isChar comesTo (column (String.ofList name) direction) (name ++ (blanks ++ word))

variable {c : Char} {cs word : List Char} {direction : Option Direction} {item : OrderItem}

theorem IsWritten.imp {isChar isChar' : Char → Bool}
    {comesTo comesTo' : List Char → Option Direction → Prop}
    (hchar : ∀ c ∈ cs, isChar c = true → isChar' c = true)
    (hword : ∀ word ⊆ cs, ∀ direction, comesTo word direction → comesTo' word direction)
    (h : IsWritten isChar comesTo item cs) : IsWritten isChar' comesTo' item cs := by
  cases h with
  | plain hne hname => exact .plain hne fun c hc => hchar c hc (hname c hc)
  | directed hne hname hblanks hblank hcomes =>
      refine .directed hne (fun c hc => hchar c (List.mem_append_left _ hc) (hname c hc)) hblanks
        hblank (hword _ (fun c hc => ?_) _ hcomes)
      exact List.mem_append_right _ (List.mem_append_right _ hc)

theorem isColumnChar_iff :
    isColumnChar c = true ↔ Label.isNameChar c = true ∨ Text.foldsFromOutside c = true := by
  have hfold : isColumnChar c = Label.isNameChar (Text.fold c) := rfl
  rw [hfold]
  cases hout : Text.foldsFromOutside c with
  | true =>
      have hname := Text.of_foldsFromOutside
        (P := fun c => Label.isNameChar (Text.fold c) = true) (by decide) (by decide) hout
      simp [hname]
  | false => rw [Text.fold_of_inside hout, Label.isNameChar_toLower]; simp

theorem isColumnChar_of_inside (h : Text.foldsFromOutside c = false) :
    isColumnChar c = true ↔ Label.isNameChar c = true := by
  simp [isColumnChar_iff, h]

theorem isBlank_of_isColumnChar (h : isColumnChar c = true) : Text.isBlank c = false := by
  rcases isColumnChar_iff.1 h with h | h
  · exact Label.isBlank_of_isNameChar h
  · exact Text.of_foldsFromOutside (P := fun c => Text.isBlank c = false) (by decide) (by decide) h

theorem isColumnChar_of_isRead (h : Direction.IsRead word direction) :
    ∀ c ∈ word, isColumnChar c = true := by
  obtain ⟨d, hd, -⟩ := h
  intro c hc
  have hmem : Text.fold c ∈ d.keyword.toList.map Char.toLower := hd ▸ List.mem_map_of_mem hc
  have hletters : (d.keyword.toList.map Char.toLower).all Label.isNameChar = true := by
    cases d <;> decide
  exact List.all_eq_true.1 hletters _ hmem

/-- Behind a column stands nothing, or blanks and a direction word. Blanks there must be, as the
letters of a direction would belong to the column. -/
theorem readDirection?_eq_some_iff (hhead : ∀ c ∈ cs.head?, isColumnChar c = false) :
    readDirection? cs = some direction ↔ cs = [] ∧ direction = none ∨
      ∃ blanks word, blanks ≠ [] ∧ (∀ b ∈ blanks, Text.isBlank b = true) ∧
        Direction.IsRead word direction ∧ cs = blanks ++ word := by
  have hcons (c : Char) (cs : List Char) : readDirection? (c :: cs) = some direction ↔
      Direction.IsRead (Text.trimStartChars (c :: cs)) direction := by
    rw [readDirection?, Direction.isRead_iff]
    split
    · next h => simp [h]
    · next h => simp [h]
    · simp
  constructor
  · intro h
    cases cs with
    | nil => exact .inl ⟨rfl, (Option.some.inj h).symm⟩
    | cons c cs =>
        have hword := (hcons c cs).1 h
        refine .inr ⟨(c :: cs).takeWhile Text.isBlank, Text.trimStartChars (c :: cs), ?_,
          fun b hb => List.mem_takeWhile_imp hb, hword, List.takeWhile_append_dropWhile.symm⟩
        intro hnil
        have hstays : Text.trimStartChars (c :: cs) = c :: cs := by
          have happend := List.takeWhile_append_dropWhile (p := Text.isBlank) (l := c :: cs)
          rwa [hnil, List.nil_append] at happend
        rw [hstays] at hword
        exact absurd (isColumnChar_of_isRead hword c List.mem_cons_self) (by simp [hhead c rfl])
  · rintro (⟨rfl, rfl⟩ | ⟨blanks, word, hne, hblank, hword, rfl⟩)
    · rfl
    · have htrim : Text.trimStartChars (blanks ++ word) = word := by
        rw [Text.trimStartChars, List.dropWhile_append_of_pos hblank]
        refine Text.trimStartChars_eq_self fun c hc => ?_
        exact isBlank_of_isColumnChar (isColumnChar_of_isRead hword c (List.mem_of_mem_head? hc))
      obtain ⟨b, blanks, rfl⟩ := List.exists_cons_of_ne_nil hne
      rw [List.cons_append] at htrim ⊢
      rwa [hcons, htrim]

theorem parse_eq_ok_iff {text : String} : parse text = .ok item ↔
    IsWritten isColumnChar Direction.IsRead item (Text.trimChars text.toList) := by
  simp only [parse]
  generalize Text.trimChars text.toList = cs
  constructor
  · intro h
    split at h
    · next direction hdirection =>
        split at h
        · cases h
        · next hne =>
            obtain rfl := Except.ok.inj h
            have hname : ∀ c ∈ cs.takeWhile isColumnChar, isColumnChar c = true :=
              fun c hc => List.mem_takeWhile_imp hc
            have hhead : ∀ c ∈ (cs.dropWhile isColumnChar).head?, isColumnChar c = false :=
              fun c hc => by
                have hnot := List.head?_dropWhile_not isColumnChar cs
                rw [hc] at hnot
                simpa using hnot
            have happend := List.takeWhile_append_dropWhile (p := isColumnChar) (l := cs)
            rcases (readDirection?_eq_some_iff hhead).1 hdirection with
              ⟨hnil, rfl⟩ | ⟨blanks, word, hblanks, hblank, hword, hrest⟩
            · rw [hnil, List.append_nil] at happend
              rw [happend] at hne hname ⊢
              exact .plain hne hname
            · have hwritten := IsWritten.directed hne hname hblanks hblank hword
              rwa [← hrest, happend] at hwritten
    · cases h
  · intro h
    cases h with
    | plain hne hname =>
        rw [List.takeWhile_eq_self_iff.2 hname, List.dropWhile_eq_nil_iff.2 hname]
        simp [readDirection?, hne]
    | @directed _ blanks word direction hne hname hblanks hblank hword =>
        obtain ⟨b, blanks, rfl⟩ := List.exists_cons_of_ne_nil hblanks
        have hb : isColumnChar b = false := by
          by_contra hcolumn
          have hblank' := isBlank_of_isColumnChar (eq_true_of_ne_false hcolumn)
          rw [hblank b List.mem_cons_self] at hblank'
          cases hblank'
        have hread : readDirection? (b :: (blanks ++ word)) = some direction :=
          (readDirection?_eq_some_iff fun c hc => by
            obtain rfl : b = c := Option.some.inj hc
            exact hb).2 (.inr ⟨b :: blanks, word, hblanks, hblank, hword, rfl⟩)
        rw [List.cons_append, Text.takeWhile_append_cons hname hb,
          Text.dropWhile_append_cons hname hb, hread]
        simp [hne]

theorem inside_of_isWritten (h : IsWritten Label.isNameChar Direction.IsNamed item cs) :
    ∀ c ∈ cs, Text.foldsFromOutside c = false := by
  have hname (name : List Char) (hname : ∀ c ∈ name, Label.isNameChar c = true) :
      ∀ c ∈ name, Text.foldsFromOutside c = false := fun c hc =>
    Label.of_isNameChar (P := fun c => Text.foldsFromOutside c = false) (by decide +kernel)
      (hname c hc)
  cases h with
  | plain hne hchars => exact hname _ hchars
  | directed hne hchars hblanks hblank hword =>
      obtain ⟨d, hd, -⟩ := hword
      intro c hc
      rcases List.mem_append.1 hc with hc | hc
      · exact hname _ hchars c hc
      rcases List.mem_append.1 hc with hc | hc
      · by_contra hout
        have hnot := Text.of_foldsFromOutside (P := fun c => Text.isBlank c = false) (by decide)
          (by decide) (eq_true_of_ne_false hout)
        rw [hblank c hc] at hnot
        cases hnot
      · exact Text.inside_of_sameLetterChars hd d.not_mem_keyword c hc

theorem isWritten_iff_of_inside (h : ∀ c ∈ cs, Text.foldsFromOutside c = false) :
    IsWritten isColumnChar Direction.IsRead item cs ↔
      IsWritten Label.isNameChar Direction.IsNamed item cs :=
  ⟨IsWritten.imp (fun c hc => (isColumnChar_of_inside (h c hc)).1)
      fun _ hword _ => (Direction.isRead_iff_isNamed fun c hc => h c (hword hc)).1,
    IsWritten.imp (fun c hc => (isColumnChar_of_inside (h c hc)).2)
      fun _ hword _ => (Direction.isRead_iff_isNamed fun c hc => h c (hword hc)).2⟩

/-- An item is read from a text exactly if the text, without the blanks around it, is written as the
item under simple case folding. It is also read exactly as it is written in ASCII, with the
direction of its second word, unless the text is accepted with a long s or a Kelvin sign in it. -/
theorem texts_are_read_under_folding (text : String) :
    (∀ item, parse text = .ok item ↔
        IsWritten isColumnChar Direction.IsRead item (Text.trimChars text.toList)) ∧
      ((∀ item, parse text = .ok item ↔
          IsWritten Label.isNameChar Direction.IsNamed item (Text.trimChars text.toList)) ↔
        ∀ item, parse text = .ok item →
          ∀ c ∈ Text.trimChars text.toList, Text.foldsFromOutside c = false) := by
  refine ⟨fun item => parse_eq_ok_iff, fun h item hitem => ?_, fun h item => ⟨fun hitem => ?_, ?_⟩⟩
  · exact inside_of_isWritten ((h item).1 hitem)
  · exact (isWritten_iff_of_inside (h item hitem)).1 (parse_eq_ok_iff.1 hitem)
  · intro hwritten
    exact parse_eq_ok_iff.2 ((isWritten_iff_of_inside (inside_of_isWritten hwritten)).2 hwritten)

/-- A long s in the second word: the item is read, and its direction is lost. -/
theorem direction_with_long_s_is_dropped :
    parse "a de\u017fc" = .ok (column "a" none) ∧
      ¬ ∃ item, IsWritten Label.isNameChar Direction.IsNamed item
        (Text.trimChars "a de\u017fc".toList) := by
  refine ⟨rfl, fun ⟨item, hitem⟩ => ?_⟩
  exact absurd (inside_of_isWritten hitem '\u017f' (by decide)) (by decide)

end OrderItem

end KeyedQuery
