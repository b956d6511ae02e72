import KeyedQuery.Condition.GroupKey
import KeyedQuery.Condition.Leaf
import KeyedQuery.Proofs.Identifier
import KeyedQuery.Proofs.Key
import KeyedQuery.Proofs.Label
import KeyedQuery.Proofs.Sql.Name
import KeyedQuery.Write.Statement

/-!
# The grammar of keys

The keys of conditions and of assignments are one language up to the suffixes that may stand in
brackets, and the reader of keys accepts this language and nothing else. What it reads is the key
taken apart: put together again, the parts are the key. The keys of groups are another language, and
the two have nothing in common but the words of the conjunctors.
-/

namespace KeyedQuery

namespace Text

variable {p : Char → Bool} {c : Char} {cs : List Char} {pieces : List (List Char)}

theorem intercalate_cons_append (d : Char) (piece : List Char) (pieces : List (List Char)) :
    [c].intercalate ((d :: piece) :: pieces) = d :: [c].intercalate (piece :: pieces) := by
  cases pieces with
  | nil => simp
  | cons next pieces => simp [List.intercalate_cons_cons]

theorem intercalate_splitOnP (c : Char) (cs : List Char) :
    [c].intercalate (splitOnP (· == c) cs) = cs := by
  induction cs with
  | nil => rfl
  | cons d cs ih =>
      obtain ⟨piece, pieces, hsplit⟩ := List.exists_cons_of_ne_nil (splitOnP_ne_nil (· == c) cs)
      by_cases hd : d = c
      · rw [splitOnP, if_pos (by simpa using hd), hsplit, List.intercalate_cons_cons, ← hsplit, ih,
          List.nil_append, hd, List.singleton_append]
      · rw [splitOnP, if_neg (by simpa using hd), hsplit]
        simp only
        rw [intercalate_cons_append, ← hsplit, ih]

theorem splitOnP_intercalate (hne : pieces ≠ []) (h : ∀ piece ∈ pieces, c ∉ piece) :
    splitOnP (· == c) ([c].intercalate pieces) = pieces := by
  have hsingle : ∀ piece ∈ pieces, splitOnP (· == c) piece = [piece] := fun piece hpiece =>
    splitOnP_eq_singleton fun d hd => by
      simpa using fun heq : d = c => h piece hpiece (heq ▸ hd)
  induction pieces with
  | nil => exact absurd rfl hne
  | cons piece rest ih =>
      obtain ⟨hpiece, hrest⟩ := List.forall_mem_cons.1 hsingle
      cases rest with
      | nil => rw [List.intercalate_singleton, hpiece]
      | cons next rest =>
          rw [List.intercalate_cons_cons, List.append_assoc, List.singleton_append,
            splitOnP_append_cons (by simp), hpiece,
            ih (by simp) (List.forall_mem_cons.1 h).2 hrest, List.singleton_append]

theorem not_of_mem_splitOnP {piece : List Char} (hpiece : piece ∈ splitOnP p cs) :
    ∀ c ∈ piece, p c = false := by
  induction cs generalizing piece with
  | nil =>
      obtain rfl : piece = [] := by simpa using hpiece
      simp
  | cons d cs ih =>
      obtain ⟨first, rest, hsplit⟩ := List.exists_cons_of_ne_nil (splitOnP_ne_nil p cs)
      rw [hsplit] at ih
      rw [splitOnP, hsplit] at hpiece
      split at hpiece
      · rcases List.mem_cons.1 hpiece with rfl | hpiece
        · simp
        · exact ih hpiece
      · next hd =>
          rcases List.mem_cons.1 hpiece with rfl | hpiece
          · exact List.forall_mem_cons.2 ⟨by simpa using hd, ih List.mem_cons_self⟩
          · exact ih (List.mem_cons_of_mem _ hpiece)

end Text

/-! ## Keys of columns -/

namespace Key

variable {α : Type}

/-- A name: one or more letters, digits, underscores and dashes. -/
def IsName (cs : List Char) : Prop := cs ≠ [] ∧ ∀ c ∈ cs, Label.isChar c = true

/-- A column: names with points between them. -/
def IsColumn (cs : List Char) : Prop :=
  ∃ names, names ≠ [] ∧ (∀ name ∈ names, IsName name) ∧ cs = ['.'].intercalate names

/-- The keys with some of the suffixes: perhaps the marker, a column, and perhaps a suffix in
brackets. -/
def InGrammar (suffixes : List String) (key : String) : Prop :=
  ∃ marker column ending, (marker = [] ∨ marker = ['#']) ∧ IsColumn column ∧
    (ending = [] ∨ ∃ suffix ∈ suffixes, ending = '[' :: suffix.toList ++ [']']) ∧
    key.toList = marker ++ column ++ ending

def ending (suffix : α → String) : Option α → List Char
  | none => []
  | some op => '[' :: (suffix op).toList ++ [']']

def text (suffix : α → String) (k : Key α) : String :=
  String.ofList ((if k.raw then ['#'] else []) ++ k.column.toList ++ ending suffix k.operator)

theorem isColumnChar_iff {c : Char} : isColumnChar c = true ↔ Label.isChar c = true ∨ c = '.' := by
  simp only [isColumnChar, Label.isChar, Bool.or_eq_true, beq_iff_eq]
  tauto

theorem IsName.point_not_mem {name : List Char} (h : IsName name) : '.' ∉ name :=
  fun hpoint => absurd (h.2 '.' hpoint) (by decide)

theorem IsColumn.ne_nil {cs : List Char} (h : IsColumn cs) : cs ≠ [] := by
  obtain ⟨names, hne, hnames, rfl⟩ := h
  obtain ⟨name, rest, rfl⟩ := List.exists_cons_of_ne_nil hne
  have hname := (hnames name List.mem_cons_self).1
  cases rest with
  | nil => simpa using hname
  | cons next rest => simp [List.intercalate_cons_cons, hname]

theorem IsColumn.isColumnChar {cs : List Char} (h : IsColumn cs) :
    ∀ c ∈ cs, isColumnChar c = true := by
  obtain ⟨names, -, hnames, rfl⟩ := h
  intro c hc
  rw [isColumnChar_iff]
  induction names with
  | nil => simp at hc
  | cons name rest ih =>
      obtain ⟨hname, hrest⟩ := List.forall_mem_cons.1 hnames
      cases rest with
      | nil => exact .inl (hname.2 c (by simpa using hc))
      | cons next rest =>
          rw [List.intercalate_cons_cons, List.append_assoc, List.mem_append, List.mem_append,
            List.mem_singleton] at hc
          rcases hc with hc | hc | hc
          · exact .inl (hname.2 c hc)
          · exact .inr hc
          · exact ih hrest hc

/-- Nothing is wrong with a column exactly if it consists of names with points between them. -/
theorem columnFault?_eq_none_iff {cs : List Char} : columnFault? cs = none ↔ IsColumn cs := by
  constructor
  · intro h
    obtain ⟨hne, hchars⟩ := columnFault?_eq_none h
    have hfind : cs.find? (fun c => !Key.isColumnChar c) = none := by
      simpa using hchars
    simp only [columnFault?, if_neg hne, hfind] at h
    have hempty : [] ∉ Text.splitOnP (· == '.') cs := by simpa using h
    refine ⟨Text.splitOnP (· == '.') cs, Text.splitOnP_ne_nil _ _, fun piece hpiece => ?_,
      (Text.intercalate_splitOnP '.' cs).symm⟩
    refine ⟨fun hnil => hempty (hnil ▸ hpiece), fun c hc => ?_⟩
    have hpoint : c ≠ '.' := by simpa using Text.not_of_mem_splitOnP hpiece c hc
    exact (isColumnChar_iff.1 (hchars c (Text.mem_of_mem_splitOnP hpiece hc))).resolve_right hpoint
  · intro h
    have hfind : cs.find? (fun c => !Key.isColumnChar c) = none := by
      simpa using h.isColumnChar
    have hne := h.ne_nil
    obtain ⟨names, hnil, hnames, rfl⟩ := h
    have hpieces : Text.splitOnP (· == '.') (['.'].intercalate names) = names :=
      Text.splitOnP_intercalate hnil fun name hname => (hnames name hname).point_not_mem
    simp only [columnFault?, if_neg hne, hfind, hpieces]
    rw [if_neg]
    simpa using fun hmem => (hnames [] hmem).1 rfl

def readEnding (read? : String → Option α) : List Char → Except KeyFault (Option α)
  | [] => .ok none
  | _ :: rest => (readOperator read? rest).map some

theorem split_eq (read? : String → Option α) (cs : List Char) :
    split read? cs = readEnding read? (cs.dropWhile (· ≠ '[')) >>= fun op? =>
      match columnFault? (cs.takeWhile (· ≠ '[')) with
      | some f => .error f
      | none => .ok (String.ofList (cs.takeWhile (· ≠ '[')), op?) := by
  unfold split
  cases cs.dropWhile (· ≠ '[') <;> rfl

theorem isColumnChar_ne_bracket {c : Char} (h : Key.isColumnChar c = true) : c ≠ '[' := by
  rintro rfl
  exact absurd h (by decide)

theorem toList_splitMarker (key : String) :
    key.toList = (if (Identifier.splitMarker key).1 then ['#'] else []) ++
      (Identifier.splitMarker key).2.toList := by
  unfold Identifier.splitMarker
  split
  · next rest hrest => simp [hrest]
  · simp

theorem splitMarker_ofList (raw : Bool) {cs : List Char} (h : cs.head? ≠ some '#') :
    Identifier.splitMarker (String.ofList ((if raw then ['#'] else []) ++ cs)) =
      (raw, String.ofList cs) := by
  unfold Identifier.splitMarker
  rw [String.toList_ofList]
  cases raw with
  | true => rfl
  | false =>
      split
      · next rest hrest => simp_all
      · simp

section Read

variable {read? : String → Option α} {suffix : α → String}
  (hread : ∀ s op, read? s = some op ↔ s = suffix op)
include hread

theorem readOperator_eq_ok_iff {cs : List Char} {op : α} :
    readOperator read? cs = .ok op ↔ cs = (suffix op).toList ++ [']'] := by
  constructor
  · intro h
    unfold readOperator at h
    split at h
    · cases h
    · next inner hinner =>
        simp only at h
        split at h
        · cases h
        · next found hfound =>
            obtain rfl := Except.ok.inj h
            rw [← (hread _ _).1 hfound, String.toList_ofList]
            exact (List.isSuffixOf?_eq_some_iff_append_eq.1 hinner).symm
  · rintro rfl
    have hinner : [']'].isSuffixOf? ((suffix op).toList ++ [']']) = some (suffix op).toList :=
      List.isSuffixOf?_eq_some_iff_append_eq.2 rfl
    simp only [readOperator, hinner, String.ofList_toList, (hread _ op).2 rfl]

theorem readEnding_eq_ok_iff {cs : List Char} {op? : Option α} (h : ∀ c ∈ cs.head?, c = '[') :
    readEnding read? cs = .ok op? ↔ cs = ending suffix op? := by
  cases cs with
  | nil =>
      cases op? with
      | none => simp [readEnding, ending]
      | some op => simp [readEnding, ending]
  | cons c rest =>
      obtain rfl := h c rfl
      simp only [readEnding, Result.map_eq_ok_iff, readOperator_eq_ok_iff hread]
      cases op? with
      | none => simp [ending]
      | some op => simp [ending]

/-- A key without its marker is read exactly if it is a column with an operator in brackets or
without one. -/
theorem split_eq_ok_iff {cs : List Char} {column : String} {op? : Option α} :
    split read? cs = .ok (column, op?) ↔
      IsColumn column.toList ∧ cs = column.toList ++ ending suffix op? := by
  rw [split_eq, Result.do_eq_ok_iff]
  constructor
  · rintro ⟨op?, hending, h⟩
    split at h
    · cases h
    · next hfault =>
        obtain ⟨rfl, rfl⟩ := Prod.mk.inj (Except.ok.inj h)
        have hbracket : ∀ c ∈ (cs.dropWhile (· ≠ '[')).head?, c = '[' := fun c hc => by
          have hnot := List.head?_dropWhile_not (· ≠ '[') cs
          rw [Option.mem_def.1 hc] at hnot
          simpa using hnot
        rw [String.toList_ofList, ← (readEnding_eq_ok_iff hread hbracket).1 hending,
          List.takeWhile_append_dropWhile]
        exact ⟨columnFault?_eq_none_iff.1 hfault, rfl⟩
  · rintro ⟨hcolumn, rfl⟩
    have hplain : ∀ c ∈ column.toList, decide (c ≠ '[') = true := fun c hc =>
      decide_eq_true (isColumnChar_ne_bracket (hcolumn.isColumnChar c hc))
    have hends : (ending suffix op?).takeWhile (· ≠ '[') = [] ∧
        (ending suffix op?).dropWhile (· ≠ '[') = ending suffix op? := by
      cases op? <;> simp [ending]
    rw [List.takeWhile_append_of_pos hplain, List.dropWhile_append_of_pos hplain, hends.1, hends.2,
      List.append_nil, columnFault?_eq_none_iff.2 hcolumn, String.ofList_toList]
    refine ⟨op?, (readEnding_eq_ok_iff hread ?_).2 rfl, rfl⟩
    cases op? <;> simp [ending]

/-- A key is read exactly if its column consists of names, and then it is the text of what is
read. -/
theorem parse_eq_ok_iff_text {key : String} {k : Key α} :
    parse read? key = .ok k ↔ IsColumn k.column.toList ∧ k.text suffix = key := by
  constructor
  · intro h
    simp only [parse] at h
    split at h
    · next hsplit =>
        obtain rfl := Except.ok.inj h
        obtain ⟨hcolumn, hrest⟩ := (split_eq_ok_iff hread).1 hsplit
        refine ⟨hcolumn, ?_⟩
        rw [text, List.append_assoc, ← hrest, ← toList_splitMarker, String.ofList_toList]
    · cases h
  · rintro ⟨hcolumn, rfl⟩
    have hmarker : (k.column.toList ++ ending suffix k.operator).head? ≠ some '#' := by
      rw [List.head?_append_of_ne_nil _ hcolumn.ne_nil]
      intro hhead
      exact absurd (hcolumn.isColumnChar '#' (List.mem_of_mem_head? hhead)) (by decide)
    simp only [parse, text, List.append_assoc, splitMarker_ofList _ hmarker, String.toList_ofList,
      (split_eq_ok_iff hread).2 ⟨hcolumn, rfl⟩]

/-- The keys that are read are those of the grammar. -/
theorem exists_parse_iff {suffixes : List String}
    (hsuffixes : ∀ s, s ∈ suffixes ↔ ∃ op, suffix op = s) (key : String) :
    (∃ k, parse read? key = .ok k) ↔ InGrammar suffixes key := by
  constructor
  · rintro ⟨k, hk⟩
    obtain ⟨hcolumn, rfl⟩ := (parse_eq_ok_iff_text hread).1 hk
    refine ⟨if k.raw then ['#'] else [], k.column.toList, ending suffix k.operator, ?_, hcolumn, ?_,
      String.toList_ofList⟩
    · cases k.raw <;> simp
    · cases k.operator with
      | none => exact .inl rfl
      | some op => exact .inr ⟨suffix op, (hsuffixes _).2 ⟨op, rfl⟩, rfl⟩
  · rintro ⟨marker, column, rest, hmarker, hcolumn, hrest, hkey⟩
    obtain ⟨raw, rfl⟩ : ∃ raw : Bool, marker = if raw then ['#'] else [] := by
      rcases hmarker with rfl | rfl
      · exact ⟨false, rfl⟩
      · exact ⟨true, rfl⟩
    obtain ⟨op?, rfl⟩ : ∃ op?, rest = ending suffix op? := by
      rcases hrest with rfl | ⟨s, hs, rfl⟩
      · exact ⟨none, rfl⟩
      · obtain ⟨op, rfl⟩ := (hsuffixes s).1 hs
        exact ⟨some op, rfl⟩
    refine ⟨⟨raw, String.ofList column, op?⟩, (parse_eq_ok_iff_text hread).2 ⟨?_, ?_⟩⟩
    · rwa [String.toList_ofList]
    · rw [text, String.toList_ofList, ← hkey, String.ofList_toList]

end Read

theorem parse_eq_error {read? : String → Option α} {key : String} {e : Error}
    (h : parse read? key = .error e) : ∃ f, e = .malformed (.key key f) := by
  simp only [parse] at h
  split at h
  · cases h
  · exact ⟨_, (Except.error.inj h).symm⟩

end Key

/-! ## Keys of groups -/

namespace Text

theorem isAlpha_of_isAlpha_toLower {c : Char} (h : c.toLower.isAlpha = true) :
    c.isAlpha = true := by
  unfold Char.toLower at h
  split at h
  · next hrange =>
      have hupper : c.isUpper = true := decide_eq_true hrange
      exact Bool.or_eq_true_iff.2 (.inl hupper)
  · exact h

theorem isAlpha_of_sameLetterChars {cs ds : List Char} (h : sameLetterChars cs ds = true)
    (hds : ∀ d ∈ ds, d.toLower.isAlpha = true) : ∀ c ∈ cs, c.isAlpha = true := by
  intro c hc
  rw [sameLetterChars_eq_true_iff] at h
  have hmem : c.toLower ∈ ds.map Char.toLower := h ▸ List.mem_map_of_mem hc
  obtain ⟨d, hd, heq⟩ := List.mem_map.1 hmem
  exact isAlpha_of_isAlpha_toLower (heq ▸ hds d hd)

theorem isAlpha_of_isBlank {c : Char} (h : isBlank c = true) : c.isAlpha = false := by
  by_contra halpha
  have hname : Label.isNameChar c = true := by
    simp [Label.isNameChar, Label.isChar, Char.isAlphanum, eq_true_of_ne_false halpha]
  rw [Label.isBlank_of_isNameChar hname] at h
  cases h

end Text

theorem Conjunctor.read?_eq_some_iff {word : List Char} {c : Conjunctor} :
    read? word = some c ↔ Text.sameLetterChars word c.keyword.toList = true := by
  have hand : Text.sameLetterChars word "AND".toList = Text.sameLetterChars word ['a', 'n', 'd'] :=
    rfl
  have hor : Text.sameLetterChars word "OR".toList = Text.sameLetterChars word ['o', 'r'] := rfl
  have hapart (h : Text.sameLetterChars word ['a', 'n', 'd'] = true) :
      Text.sameLetterChars word ['o', 'r'] = false :=
    Text.sameLetterChars_apart (by decide) h
  unfold read?
  cases c with
  | and =>
      rw [keyword, hand]
      split
      · next h => simp [h]
      · next h => split <;> simp [h]
  | or =>
      rw [keyword, hor]
      split
      · next h => simp [hapart h]
      · simp

theorem Conjunctor.isAlpha_keyword (c : Conjunctor) :
    ∀ d ∈ c.keyword.toList, d.toLower.isAlpha = true := by
  have hletters : c.keyword.toList.all (fun d => d.toLower.isAlpha) = true := by
    cases c <;> decide
  exact List.all_eq_true.1 hletters

namespace GroupKey

/-- The keys of groups: the word of a conjunctor in any case of letters, alone, or in front of one
or more blanks, the number sign and a comment. -/
inductive IsWritten : GroupKey → List Char → Prop
  | bare {c : Conjunctor} {word : List Char}
      (hword : Text.sameLetterChars word c.keyword.toList = true) : IsWritten ⟨c, none⟩ word
  | commented {c : Conjunctor} {word blanks : List Char} (comment : String)
      (hword : Text.sameLetterChars word c.keyword.toList = true) (hne : blanks ≠ [])
      (hblanks : ∀ b ∈ blanks, Text.isBlank b = true) :
      IsWritten ⟨c, some comment⟩ (word ++ (blanks ++ '#' :: comment.toList))

theorem readComment?_eq_some_iff {cs : List Char} {comment : String} :
    readComment? cs = some (some comment) ↔
      ∃ blanks, blanks ≠ [] ∧ (∀ b ∈ blanks, Text.isBlank b = true) ∧
        cs = blanks ++ '#' :: comment.toList := by
  constructor
  · intro h
    unfold readComment? at h
    split at h
    · cases h
    · next c rest =>
        split at h
        · next hc =>
            split at h
            · next tail htail =>
                have htail' : tail = comment.toList := by
                  rw [← Option.some.inj (Option.some.inj h), String.toList_ofList]
                refine ⟨c :: rest.takeWhile Text.isBlank, by simp, ?_, ?_⟩
                · exact List.forall_mem_cons.2 ⟨hc, fun b hb => List.mem_takeWhile_imp hb⟩
                · rw [← htail', ← htail, List.cons_append, Text.trimStartChars,
                    List.takeWhile_append_dropWhile]
            · cases h
        · cases h
  · rintro ⟨blanks, hne, hblanks, rfl⟩
    obtain ⟨b, blanks, rfl⟩ := List.exists_cons_of_ne_nil hne
    obtain ⟨hb, hblanks⟩ := List.forall_mem_cons.1 hblanks
    have htrim : Text.trimStartChars (blanks ++ '#' :: comment.toList) = '#' :: comment.toList :=
      Text.dropWhile_append_cons hblanks (by decide)
    rw [List.cons_append, readComment?, if_pos hb, htrim]
    simp

theorem readComment?_eq_some_none_iff {cs : List Char} :
    readComment? cs = some none ↔ cs = [] := by
  unfold readComment?
  split
  · simp
  · split
    · split <;> simp
    · simp

/-- A key is read as that of a group exactly if it is written as one. -/
theorem parse?_eq_some_iff {key : String} {g : GroupKey} :
    parse? key = some g ↔ IsWritten g key.toList := by
  constructor
  · intro h
    obtain ⟨c, hc, h⟩ := Option.bind_eq_some_iff.1 h
    obtain ⟨comment, hcomment, h⟩ := Option.bind_eq_some_iff.1 h
    obtain rfl := Option.some.inj h
    have hword := Conjunctor.read?_eq_some_iff.1 hc
    rw [← List.takeWhile_append_dropWhile (p := Char.isAlpha) (l := key.toList)]
    cases comment with
    | none =>
        rw [readComment?_eq_some_none_iff.1 hcomment, List.append_nil]
        exact .bare hword
    | some comment =>
        obtain ⟨blanks, hne, hblanks, hrest⟩ := readComment?_eq_some_iff.1 hcomment
        rw [hrest]
        exact .commented comment hword hne hblanks
  · intro h
    unfold parse?
    generalize key.toList = cs at h
    cases h with
    | @bare c _ hword =>
        have halpha := Text.isAlpha_of_sameLetterChars hword c.isAlpha_keyword
        rw [List.takeWhile_eq_self_iff.2 halpha, List.dropWhile_eq_nil_iff.2 halpha,
          Conjunctor.read?_eq_some_iff.2 hword]
        rfl
    | @commented c _ blanks comment hword hne hblanks =>
        have halpha := Text.isAlpha_of_sameLetterChars hword c.isAlpha_keyword
        have hread : readComment? (blanks ++ '#' :: comment.toList) = some (some comment) :=
          readComment?_eq_some_iff.2 ⟨blanks, hne, hblanks, rfl⟩
        obtain ⟨b, blanks, rfl⟩ := List.exists_cons_of_ne_nil hne
        have hb := Text.isAlpha_of_isBlank (hblanks b List.mem_cons_self)
        rw [List.cons_append, Text.takeWhile_append_cons halpha hb,
          Text.dropWhile_append_cons halpha hb, ← List.cons_append, hread,
          Conjunctor.read?_eq_some_iff.2 hword]
        rfl

end GroupKey

/-! ## Both languages -/

namespace LeafKey

variable {key : String} {k : LeafKey}

theorem isBlank_of_mem_suffix (op : Operator) : ∀ c ∈ op.suffix.toList, Text.isBlank c = false := by
  have hsigns : op.suffix.toList.all (fun c => !Text.isBlank c) = true := by
    rcases op with (_ | _ | _ | _) | _ | (_ | _) | (_ | _) <;> decide
  simpa using hsigns

theorem isBlank_of_mem_key (h : parse key = .ok k) : ∀ c ∈ key.toList, Text.isBlank c = false := by
  obtain ⟨hcolumn, rfl⟩ := (Key.parse_eq_ok_iff_text Operator.ofSuffix?_eq_some_iff).1 h
  intro c hc
  rw [Key.text, String.toList_ofList, List.mem_append, List.mem_append] at hc
  rcases hc with (hc | hc) | hc
  · cases hraw : k.raw with
    | true =>
        obtain rfl : c = '#' := by simpa [hraw] using hc
        decide
    | false => simp [hraw] at hc
  · have hname : Label.isNameChar c = true := by
      simpa [Label.isNameChar] using Key.isColumnChar_iff.1 (hcolumn.isColumnChar c hc)
    exact Label.isBlank_of_isNameChar hname
  · cases hop : k.operator with
    | none => simp [hop, Key.ending] at hc
    | some op =>
        simp only [hop, Key.ending, List.cons_append, List.mem_cons, List.mem_append,
          List.not_mem_nil, or_false] at hc
        rcases hc with rfl | hc | rfl
        · decide
        · exact isBlank_of_mem_suffix op c hc
        · decide

end LeafKey

theorem Operator.mem_suffixes_iff (s : String) :
    s ∈ [">", ">=", "<", "<=", "!", "<>", "><", "~", "!~"] ↔ ∃ op : Operator, op.suffix = s := by
  change s ∈ all.map suffix ↔ _
  rw [List.mem_map]
  exact ⟨fun ⟨op, _, hop⟩ => ⟨op, hop⟩, fun ⟨op, hop⟩ => ⟨op, mem_all op, hop⟩⟩

theorem Arithmetic.mem_signs_iff (s : String) :
    s ∈ ["+", "-", "*", "/"] ↔ ∃ op : Arithmetic, op.sign = s := by
  have hall : ∀ op : Arithmetic, op ∈ [add, subtract, multiply, divide] := by
    rintro (_ | _ | _ | _) <;> decide
  change s ∈ [add, subtract, multiply, divide].map sign ↔ _
  rw [List.mem_map]
  exact ⟨fun ⟨op, _, hop⟩ => ⟨op, hop⟩, fun ⟨op, hop⟩ => ⟨op, hall op, hop⟩⟩

theorem Arithmetic.ofSign?_eq_some_iff (sign : String) (op : Arithmetic) :
    ofSign? sign = some op ↔ sign = op.sign := by
  constructor
  · intro h
    have hsign := List.find?_some h
    simpa using (eq_of_beq hsign).symm
  · rintro rfl
    exact ofSign?_sign op

namespace Key

theorem isColumn_of_isAlpha {cs : List Char} (hne : cs ≠ []) (h : ∀ c ∈ cs, c.isAlpha = true) :
    IsColumn cs := by
  refine ⟨[cs], by simp, List.forall_mem_singleton.2 ⟨hne, fun c hc => ?_⟩, by simp⟩
  simp [Label.isChar, Char.isAlphanum, h c hc]

/-- A key is that of a column and that of a group exactly if it is the word of a conjunctor. -/
theorem both_parse_iff (key : String) :
    ((∃ k, LeafKey.parse key = .ok k) ∧ ∃ g, GroupKey.parse? key = some g) ↔
      ∃ c : Conjunctor, Text.sameLetters key c.keyword = true := by
  constructor
  · rintro ⟨⟨k, hk⟩, g, hg⟩
    have hblank := LeafKey.isBlank_of_mem_key hk
    have hwritten := GroupKey.parse?_eq_some_iff.1 hg
    simp only [Text.sameLetters]
    generalize key.toList = cs at hblank hwritten
    cases hwritten with
    | bare hword => exact ⟨_, hword⟩
    | @commented c word blanks comment hword hne hblanks =>
        obtain ⟨b, blanks, rfl⟩ := List.exists_cons_of_ne_nil hne
        have hb := hblanks b List.mem_cons_self
        rw [hblank b (by simp)] at hb
        cases hb
  · rintro ⟨c, hc⟩
    have hwritten : GroupKey.IsWritten ⟨c, none⟩ key.toList := .bare hc
    have hcolumn : IsColumn key.toList := by
      refine isColumn_of_isAlpha ?_ (Text.isAlpha_of_sameLetterChars hc c.isAlpha_keyword)
      rintro hnil
      rw [Text.sameLetters, hnil] at hc
      cases c <;> cases hc
    refine ⟨⟨⟨false, key, none⟩, ?_⟩, _, GroupKey.parse?_eq_some_iff.2 hwritten⟩
    refine (parse_eq_ok_iff_text Operator.ofSuffix?_eq_some_iff).2 ⟨hcolumn, ?_⟩
    simp [text, ending]

/-- Keys of columns are read exactly if they are keys of the grammar with the suffixes of conditions
or of assignments, every other such key is malformed, and what is read is the key in its parts. Keys
of groups are read as they are written, and what both readers read are the words of the conjunctors
in any case of letters. -/
theorem grammars_are_exact (key : String) :
    (((∃ k, LeafKey.parse key = .ok k) ↔
          InGrammar [">", ">=", "<", "<=", "!", "<>", "><", "~", "!~"] key) ∧
        (∀ k, LeafKey.parse key = .ok k ↔
          IsColumn k.column.toList ∧ k.text Operator.suffix = key) ∧
        ∀ e, LeafKey.parse key = .error e → e.isMalformed = true) ∧
      (((∃ k, AssignmentKey.parse key = .ok k) ↔ InGrammar ["+", "-", "*", "/"] key) ∧
        (∀ k, AssignmentKey.parse key = .ok k ↔
          IsColumn k.column.toList ∧ k.text Arithmetic.sign = key) ∧
        ∀ e, AssignmentKey.parse key = .error e → e.isMalformed = true) ∧
      (∀ g, GroupKey.parse? key = some g ↔ g.IsWritten key.toList) ∧
      (((∃ k, LeafKey.parse key = .ok k) ∧ ∃ g, GroupKey.parse? key = some g) ↔
        Text.sameLetters key "AND" = true ∨ Text.sameLetters key "OR" = true) := by
  have hmalformed {α : Type} {read? : String → Option α} (e : Error)
      (h : parse read? key = .error e) : e.isMalformed = true := by
    obtain ⟨f, rfl⟩ := parse_eq_error h
    rfl
  refine ⟨⟨exists_parse_iff Operator.ofSuffix?_eq_some_iff Operator.mem_suffixes_iff key,
      fun k => parse_eq_ok_iff_text Operator.ofSuffix?_eq_some_iff, hmalformed⟩,
    ⟨exists_parse_iff Arithmetic.ofSign?_eq_some_iff Arithmetic.mem_signs_iff key,
      fun k => parse_eq_ok_iff_text Arithmetic.ofSign?_eq_some_iff, hmalformed⟩,
    fun g => GroupKey.parse?_eq_some_iff, ?_⟩
  rw [both_parse_iff]
  constructor
  · rintro ⟨c, hc⟩
    cases c with
    | and => exact .inl hc
    | or => exact .inr hc
  · rintro (h | h)
    · exact ⟨.and, h⟩
    · exact ⟨.or, h⟩

end Key

end KeyedQuery
