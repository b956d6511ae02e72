import KeyedQuery.Proofs.Label
import KeyedQuery.Query.Statement

/-!
# The grammar of labels

A text is split into a name and a label exactly if, without the blanks around it, it is the name,
any number of blanks, and the label in parentheses. The name has one place for the marker of raw
expressions in front of it, and neither part has a blank or a parenthesis, so that a text is written
in one way only. Columns, joined tables and main tables are all read by this grammar.
-/

namespace KeyedQuery

namespace Label

/-- The characters of a name, perhaps behind the marker of raw expressions, of some blanks, and of a
label in parentheses. -/
structure IsWritten (name : String) (blanks : List Char) (label : String) (cs : List Char) :
    Prop where
  isName : isMarkedName name = true
  isBlank : ∀ b ∈ blanks, Text.isBlank b = true
  isLabel : isLabel label = true
  chars : cs = name.toList ++ (blanks ++ '(' :: (label.toList ++ [')']))

variable {text name label : String} {marker blanks cs : List Char}

/-- What is split behind a marker is a run of characters of names, blanks, and a label. -/
theorem splitBehind?_eq_some (h : splitBehind? marker cs = some (name, label)) :
    ∃ run blanks, run ≠ [] ∧ (∀ c ∈ run, isNameChar c = true) ∧
      (∀ b ∈ blanks, Text.isBlank b = true) ∧ isLabel label = true ∧
      name.toList = marker ++ run ∧ cs = run ++ (blanks ++ '(' :: (label.toList ++ [')'])) := by
  unfold splitBehind? at h
  simp only at h
  split at h
  · next inner hinner =>
      split at h
      · next hparts =>
          obtain ⟨hname, hlabel, hclosing⟩ := hparts
          obtain ⟨rfl, rfl⟩ := Prod.mk.inj (Option.some.inj h)
          refine ⟨cs.takeWhile isNameChar, (cs.dropWhile isNameChar).takeWhile Text.isBlank, hname,
            fun c => List.mem_takeWhile_imp, fun b => List.mem_takeWhile_imp, ?_,
            String.toList_ofList, ?_⟩
          · rw [isLabel_iff, String.toList_ofList]
            exact ⟨hlabel, fun c => List.mem_takeWhile_imp⟩
          · rw [String.toList_ofList, ← hclosing, List.takeWhile_append_dropWhile, ← hinner,
              List.takeWhile_append_dropWhile, List.takeWhile_append_dropWhile]
      · cases h
  · cases h

namespace IsWritten

theorem trimChars_eq (h : IsWritten name blanks label cs) : Text.trimChars cs = cs := by
  obtain ⟨c, rest, hname⟩ : ∃ c rest, name.toList = c :: rest := by
    obtain ⟨marker, run, -, hname, hne, -⟩ := isMarkedName_iff.1 h.isName
    rw [hname]
    exact List.exists_cons_of_ne_nil (List.append_ne_nil_of_right_ne_nil _ hne)
  rw [h.chars]
  refine Text.trimChars_eq_self (fun d hd => ?_) fun d hd => ?_
  · rw [hname, List.cons_append, List.head?_cons, Option.mem_some_iff] at hd
    exact isBlank_of_mem_name h.isName d (by simp [hname, hd])
  · rw [← List.cons_append, ← List.append_assoc, ← List.append_assoc, List.getLast?_concat,
      Option.mem_some_iff] at hd
    rw [← hd]
    decide

theorem split?_eq (h : IsWritten name blanks label (Text.trimChars text.toList)) :
    split? text = some (name, label) := by
  obtain ⟨marker, run, hmarker, hname, hne, hrun⟩ := isMarkedName_iff.1 h.isName
  have hchars := h.chars
  rw [hname, List.append_assoc] at hchars
  rw [split?_eq_splitBehind? hmarker hne hrun hchars,
    splitBehind?_labelled hne hrun h.isBlank h.isLabel, ← hname, String.ofList_toList]

theorem unique {name' label' : String} {blanks' : List Char} (h : IsWritten name blanks label cs)
    (h' : IsWritten name' blanks' label' cs) :
    name = name' ∧ blanks = blanks' ∧ label = label' := by
  have htrim : Text.trimChars (String.ofList cs).toList = cs := by
    rw [String.toList_ofList, h.trimChars_eq]
  have hsplit := split?_eq (htrim.symm ▸ h)
  rw [split?_eq (htrim.symm ▸ h')] at hsplit
  obtain ⟨rfl, rfl⟩ := Prod.mk.inj (Option.some.inj hsplit)
  have hchars := h.chars
  rw [h'.chars, List.append_cancel_left_eq, List.append_cancel_right_eq] at hchars
  exact ⟨rfl, hchars.symm, rfl⟩

end IsWritten

/-- A text is split exactly if it is written as a name and a label, without the blanks around it. -/
theorem split?_eq_some_iff : split? text = some (name, label) ↔
    ∃ blanks, IsWritten name blanks label (Text.trimChars text.toList) := by
  constructor
  · intro h
    unfold split? at h
    split at h
    · next rest htrim =>
        obtain ⟨run, blanks, hne, hrun, hblanks, hlabel, hname, rfl⟩ := splitBehind?_eq_some h
        refine ⟨blanks, isMarkedName_iff.2 ⟨['#'], run, .inr rfl, hname, hne, hrun⟩, hblanks,
          hlabel, ?_⟩
        rw [htrim, hname]
        rfl
    · obtain ⟨run, blanks, hne, hrun, hblanks, hlabel, hname, hcs⟩ := splitBehind?_eq_some h
      refine ⟨blanks, isMarkedName_iff.2 ⟨[], run, .inl rfl, hname, hne, hrun⟩, hblanks, hlabel, ?_⟩
      rw [hcs, hname]
      rfl
  · rintro ⟨blanks, h⟩
    exact h.split?_eq

end Label

/-! ## What the grammar is read for -/

theorem Settings.checkedTable_of_isMarkedName (s : Settings) {name : String}
    (h : Label.isMarkedName name = true) : s.checkedTable name = .ok (s.table name) := by
  have htrim : Text.trim (Label.text name none) = name := Label.trim_text h (by simp)
  have hne : name ≠ "" := by
    rintro rfl
    exact absurd h (by decide)
  rw [Label.text] at htrim
  rw [checkedTable]
  simp only [htrim, if_neg hne]

theorem MainTable.ofName_of_split? (s : Settings) {table name label : String}
    (hname : Label.isMarkedName name = true) (h : Label.split? table = some (name, label)) :
    ofName s table = .ok ⟨s.table label, (s.table name).labelled (s.table label)⟩ := by
  rw [ofName, h]
  simp only [s.checkedTable_of_isMarkedName hname]
  rfl

namespace Label

/-- A text is split into a name and a label exactly if it is written as these, in the one way in
which it can be. A name with a label in parentheses is read so as a column, as a joined table and as
the main table of a statement. -/
theorem texts_are_split_exactly (text : String) :
    (∀ name label, split? text = some (name, label) ↔
        ∃ blanks, IsWritten name blanks label (Text.trim text).toList) ∧
      (split? text = none ↔
        ∀ name blanks label, ¬IsWritten name blanks label (Text.trim text).toList) ∧
      (∀ name blanks label name' blanks' label',
        IsWritten name blanks label (Text.trim text).toList →
          IsWritten name' blanks' label' (Text.trim text).toList →
            name = name' ∧ blanks = blanks' ∧ label = label') ∧
      ∀ name label, isMarkedName name = true → isLabel label = true →
        text = name ++ "(" ++ label ++ ")" →
          Column.parse text = { name, label := some label } ∧
            (∀ kind relation, Join.ofTable kind text relation =
              { kind, table := name, label := some label, relation }) ∧
            ∀ s : Settings, (MainTable.ofName s text).map
                (fun main => (main.reference.text s, main.expression.text s)) =
              .ok (s.quoteTable label, s.quoteTable name ++ " AS " ++ s.quoteTable label) := by
  rw [Text.toList_trim]
  refine ⟨fun name label => split?_eq_some_iff, ?_, fun _ _ _ _ _ _ h h' => h.unique h', ?_⟩
  · rw [Option.eq_none_iff_forall_ne_some]
    constructor
    · intro h name blanks label hwritten
      exact h _ hwritten.split?_eq
    · rintro h ⟨name, label⟩ hsplit
      obtain ⟨blanks, hwritten⟩ := split?_eq_some_iff.1 hsplit
      exact h name blanks label hwritten
  · rintro name label hname hlabel rfl
    have hsplit : split? (Label.text name (some label)) = some (name, label) :=
      split?_text hname (by simpa using hlabel)
    rw [Label.text] at hsplit
    refine ⟨?_, fun kind relation => ?_, fun s => ?_⟩
    · rw [Column.parse, hsplit]
    · rw [Join.ofTable, hsplit]
    · rw [MainTable.ofName_of_split? s hname hsplit, Except.map, Settings.quoteTable,
        Settings.quoteTable]
      refine congrArg Except.ok (Prod.ext rfl (String.toList_inj.1 ?_))
      simp [Fragment.labelled, Piece.chars]

/-- A name behind the marker, with blanks before its label and around the whole. -/
theorem texts_are_split_exactly_marked :
    split? "\u00a0 #a.b-1 \t(n_2)\n" = some ("#a.b-1", "n_2") ∧
      IsWritten "#a.b-1" [' ', '\t'] "n_2" (Text.trim "\u00a0 #a.b-1 \t(n_2)\n").toList ∧
      Column.parse "#a.b-1(n_2)" = { name := "#a.b-1", label := some "n_2" } := by
  have hwritten :
      IsWritten "#a.b-1" [' ', '\t'] "n_2" (Text.trim "\u00a0 #a.b-1 \t(n_2)\n").toList :=
    ⟨by decide, List.all_eq_true.1 (by decide), by decide, by decide +kernel⟩
  obtain ⟨hsplit, -⟩ := texts_are_split_exactly "\u00a0 #a.b-1 \t(n_2)\n"
  obtain ⟨-, -, -, hread⟩ := texts_are_split_exactly "#a.b-1(n_2)"
  exact ⟨(hsplit _ _).2 ⟨_, hwritten⟩, hwritten,
    (hread "#a.b-1" "n_2" (by decide) (by decide) rfl).1⟩

end Label

end KeyedQuery
