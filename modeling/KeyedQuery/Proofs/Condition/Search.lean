import KeyedQuery.Proofs.Condition.Complement
import KeyedQuery.Proofs.KeyGrammar
import KeyedQuery.Proofs.Sql.Literal
import Mathlib.Data.List.Infix

/-!
# Searches for a stem

A term of a search is a stem, with a mark behind it that says where in a text the stem is looked
for: none for anywhere, an underscore for the start, and a percent sign for the end. The pattern
that a term becomes has percent signs around the stem and no other wildcard. It is matched by
exactly the texts that hold the stem at its place, and a search for several terms is true of exactly
the contents that one of them matches.
-/

namespace KeyedQuery

open Sql

/-! ## Patterns around a stem -/

namespace Sql

/-- Whether a character stands for itself in the patterns of every dialect: it is no wildcard, no
bracket and no backslash. -/
def isStemChar (c : Char) : Bool :=
  c != '%' && c != '_' && c != '[' && c != ']' && c != '\\'

variable {stem pattern cs : List Char}

@[simp] theorem matchesPattern_nil_iff : matchesPattern [] cs = true ↔ cs = [] :=
  List.isEmpty_iff

theorem matchesPattern_percent_iff :
    matchesPattern ('%' :: pattern) cs = true ↔
      ∃ rest, rest <:+ cs ∧ matchesPattern pattern rest = true := by
  simp [matchesPattern, List.any_eq_true, List.mem_tails]

theorem matchesPattern_cons_iff {c : Char} (hc : isStemChar c = true) :
    matchesPattern (c :: pattern) cs = true ↔
      ∃ rest, cs = c :: rest ∧ matchesPattern pattern rest = true := by
  simp only [isStemChar, Bool.and_eq_true, bne_iff_ne] at hc
  obtain ⟨⟨⟨⟨hpercent, hscore⟩, -⟩, -⟩, -⟩ := hc
  cases cs with
  | nil => simp [matchesPattern]
  | cons d rest =>
      have hstep : matchesPattern (c :: pattern) (d :: rest) =
          ((c == '_' || c == d) && matchesPattern pattern rest) := by
        rw [matchesPattern]
        exact hpercent
      rw [hstep, Bool.and_eq_true, Bool.or_eq_true, beq_iff_eq, beq_iff_eq]
      constructor
      · rintro ⟨rfl | rfl, hrest⟩
        · exact absurd rfl hscore
        · exact ⟨rest, rfl, hrest⟩
      · rintro ⟨rest', hcons, hrest⟩
        obtain ⟨rfl, rfl⟩ := List.cons.inj hcons
        exact ⟨.inr rfl, hrest⟩

theorem matchesPattern_append_iff (h : ∀ c ∈ stem, isStemChar c = true) :
    matchesPattern (stem ++ pattern) cs = true ↔
      ∃ rest, cs = stem ++ rest ∧ matchesPattern pattern rest = true := by
  induction stem generalizing cs with
  | nil => simp
  | cons c stem ih =>
      obtain ⟨hc, hstem⟩ := List.forall_mem_cons.1 h
      rw [List.cons_append, matchesPattern_cons_iff hc]
      constructor
      · rintro ⟨rest, rfl, hrest⟩
        obtain ⟨tail, rfl, htail⟩ := (ih hstem).1 hrest
        exact ⟨tail, rfl, htail⟩
      · rintro ⟨tail, rfl, htail⟩
        exact ⟨stem ++ tail, rfl, (ih hstem).2 ⟨tail, rfl, htail⟩⟩

theorem matchesPattern_self_iff (h : ∀ c ∈ stem, isStemChar c = true) :
    matchesPattern stem cs = true ↔ cs = stem := by
  have hend : matchesPattern (stem ++ []) cs = true ↔
      ∃ rest, cs = stem ++ rest ∧ matchesPattern [] rest = true := matchesPattern_append_iff h
  simpa using hend

/-- A percent sign behind a stem lets any text go on. -/
theorem matchesPattern_append_percent_iff (h : ∀ c ∈ stem, isStemChar c = true) :
    matchesPattern (stem ++ ['%']) cs = true ↔ stem <+: cs := by
  have hall (rest : List Char) : matchesPattern ['%'] rest = true :=
    matchesPattern_percent_iff.2 ⟨[], List.nil_suffix, rfl⟩
  rw [matchesPattern_append_iff h]
  constructor
  · rintro ⟨rest, rfl, -⟩
    exact List.prefix_append stem rest
  · rintro ⟨rest, rfl⟩
    exact ⟨rest, rfl, hall rest⟩

theorem matchesPattern_percent_cons_iff (h : ∀ c ∈ stem, isStemChar c = true) :
    matchesPattern ('%' :: stem) cs = true ↔ stem <:+ cs := by
  rw [matchesPattern_percent_iff]
  constructor
  · rintro ⟨rest, hrest, hstem⟩
    rwa [(matchesPattern_self_iff h).1 hstem] at hrest
  · intro hstem
    exact ⟨stem, hstem, (matchesPattern_self_iff h).2 rfl⟩

theorem matchesPattern_percent_append_percent_iff (h : ∀ c ∈ stem, isStemChar c = true) :
    matchesPattern ('%' :: stem ++ ['%']) cs = true ↔ stem <:+: cs := by
  rw [List.cons_append, matchesPattern_percent_iff, List.infix_iff_prefix_suffix]
  constructor
  · rintro ⟨rest, hrest, hstem⟩
    exact ⟨rest, (matchesPattern_append_percent_iff h).1 hstem, hrest⟩
  · rintro ⟨rest, hstem, hrest⟩
    exact ⟨rest, hrest, (matchesPattern_append_percent_iff h).2 hstem⟩

end Sql

/-! ## Terms -/

namespace Pattern

variable {cs : List Char}

theorem isSuffixOf?_append_singleton (c : Char) (cs : List Char) :
    [c].isSuffixOf? (cs ++ [c]) = some cs :=
  List.isSuffixOf?_eq_some_iff_append_eq.2 rfl

theorem isSuffixOf?_singleton_eq_none {c : Char} (h : cs.getLast? ≠ some c) :
    [c].isSuffixOf? cs = none := by
  rw [Option.eq_none_iff_forall_ne_some]
  intro stem hstem
  rw [← List.isSuffixOf?_eq_some_iff_append_eq.1 hstem] at h
  simp at h

theorem ofTermChars_append_underscore (cs : List Char) :
    ofTermChars (cs ++ ['_']) = cs ++ ['%'] := by
  rw [ofTermChars, isSuffixOf?_append_singleton]

theorem ofTermChars_append_percent (cs : List Char) :
    ofTermChars (cs ++ ['%']) = '%' :: cs := by
  have hscore : ['_'].isSuffixOf? (cs ++ ['%']) = none :=
    isSuffixOf?_singleton_eq_none (by simp)
  rw [ofTermChars, hscore, isSuffixOf?_append_singleton]

theorem ofTermChars_of_isStemChar (hne : cs ≠ []) (h : ∀ c ∈ cs, isStemChar c = true) :
    ofTermChars cs = '%' :: cs ++ ['%'] := by
  have hlast {c : Char} (hc : isStemChar c = false) : cs.getLast? ≠ some c := fun hmem => by
    rw [h c (List.mem_of_getLast? hmem)] at hc
    cases hc
  have hpattern : isPattern cs = false := by
    rw [← Bool.not_eq_true]
    intro hpattern
    simp only [isPattern, Bool.or_eq_true, List.isPrefixOf_iff_prefix,
      List.isSuffixOf_iff_suffix] at hpattern
    rcases hpattern with ((⟨rest, rfl⟩ | ⟨rest, rfl⟩) | ⟨rest, rfl⟩) | ⟨rest, rfl⟩
    · exact absurd (h '%' (by simp)) (by decide)
    · exact absurd (h '[' (by simp)) (by decide)
    · exact absurd (h '_' (by simp)) (by decide)
    · exact absurd (h ']' (by simp)) (by decide)
  rw [ofTermChars, isSuffixOf?_singleton_eq_none (hlast (by decide)),
    isSuffixOf?_singleton_eq_none (hlast (by decide))]
  simp [hne, hpattern]

end Pattern

/-- Where in a text a stem is looked for. -/
inductive Place where
  | anywhere
  | start
  | finish
deriving DecidableEq, Repr

namespace Place

def mark : Place → String
  | anywhere => ""
  | start => "_"
  | finish => "%"

/-- Whether characters hold a stem at the place. -/
def Holds : Place → List Char → List Char → Prop
  | anywhere, stem, cs => stem <:+: cs
  | start, stem, cs => stem <+: cs
  | finish, stem, cs => stem <:+ cs

instance : ∀ (p : Place) (stem cs : List Char), Decidable (p.Holds stem cs)
  | anywhere, stem, cs => inferInstanceAs (Decidable (stem <:+: cs))
  | start, stem, cs => inferInstanceAs (Decidable (stem <+: cs))
  | finish, stem, cs => inferInstanceAs (Decidable (stem <:+ cs))

def surround : Place → List Char → List Char
  | anywhere, stem => '%' :: stem ++ ['%']
  | start, stem => stem ++ ['%']
  | finish, stem => '%' :: stem

variable {stem : List Char}

theorem matchesPattern_surround_iff (p : Place) (h : ∀ c ∈ stem, isStemChar c = true)
    (cs : List Char) : matchesPattern (p.surround stem) cs = true ↔ p.Holds stem cs := by
  cases p with
  | anywhere => exact matchesPattern_percent_append_percent_iff h
  | start => exact matchesPattern_append_percent_iff h
  | finish => exact matchesPattern_percent_cons_iff h

theorem ofTermChars_append_mark (p : Place) (hne : stem ≠ [])
    (h : ∀ c ∈ stem, isStemChar c = true) :
    Pattern.ofTermChars (stem ++ p.mark.toList) = p.surround stem := by
  cases p with
  | anywhere =>
      have hmark : stem ++ (mark anywhere).toList = stem := List.append_nil stem
      rw [hmark]
      exact Pattern.ofTermChars_of_isStemChar hne h
  | start => exact Pattern.ofTermChars_append_underscore stem
  | finish => exact Pattern.ofTermChars_append_percent stem

theorem eq_of_mem_surround {p : Place} {c : Char} (h : c ∈ p.surround stem) :
    c = '%' ∨ c ∈ stem := by
  cases p with
  | anywhere => simpa [surround, or_comm, or_assoc] using h
  | start => simpa [surround, or_comm] using h
  | finish => simpa [surround] using h

end Place

/-- A term of a search: a stem, of characters that stand for themselves, and its place. -/
structure SearchTerm where
  stem : String
  place : Place
  ne_empty : stem ≠ ""
  plain : ∀ c ∈ stem.toList, isStemChar c = true

namespace SearchTerm

variable (t : SearchTerm)

def text : String := t.stem ++ t.place.mark

def Matches (v : String) : Prop := t.place.Holds t.stem.toList v.toList

instance (v : String) : Decidable (t.Matches v) :=
  inferInstanceAs (Decidable (t.place.Holds t.stem.toList v.toList))

theorem toList_ofTerm : (Pattern.ofTerm t.text).toList = t.place.surround t.stem.toList := by
  have hne : t.stem.toList ≠ [] := fun hnil => t.ne_empty (String.toList_eq_nil_iff.1 hnil)
  rw [Pattern.ofTerm, String.toList_ofList, text, String.toList_append,
    Place.ofTermChars_append_mark t.place hne t.plain]

/-- The pattern of a term is matched by the texts that hold its stem at its place. -/
theorem matchesPattern_ofTerm_iff (v : String) :
    matchesPattern (Pattern.ofTerm t.text).toList v.toList = true ↔ t.Matches v := by
  rw [toList_ofTerm, Place.matchesPattern_surround_iff t.place t.plain]
  rfl

/-- The percent sign is the only wildcard of the pattern of a term. -/
theorem wildcard_of_mem_ofTerm {c : Char} (h : c ∈ (Pattern.ofTerm t.text).toList) :
    c = '%' ∨ isStemChar c = true := by
  rw [toList_ofTerm] at h
  exact (Place.eq_of_mem_surround h).imp_right (t.plain c)

end SearchTerm

/-! ## Searches -/

theorem Sql.Truth.any_map_ofBool {α : Type} (b : α → Bool) (xs : List α) :
    any (xs.map fun x => ofBool (b x)) = ofBool (xs.any b) := by
  induction xs with
  | nil => rfl
  | cons x xs ih =>
      rw [List.map_cons, any_cons, ih, List.any_cons]
      cases b x <;> cases xs.any b <;> rfl

namespace LeafKey

variable {s : Settings} {k : LeafKey} {texts : List String}

/-- A search for texts is written, and matches the pattern of one of them. -/
theorem toSql_texts {v : Value} (hop : k.operator = some (.like false)) (hne : texts ≠ [])
    (hv : searched v = texts.map .text) :
    k.toSql s v = .ok (anyOf (texts.map (matchOf (s.column k.column) k.raw false))) := by
  have hterms : terms k v = .ok texts := by
    rw [terms, hv]
    exact Result.mapM_map_eq_ok fun text _ => rfl
  have hsearched : (searched v).isEmpty = false := by
    rw [hv, List.isEmpty_map]
    simpa using hne
  simp only [toSql, hop, hsearched, hterms]
  rfl

theorem text_matchOf (text : String) :
    (matchOf (s.column k.column) k.raw false text).text s =
      s.quoteColumn k.column ++ " LIKE " ++ s.dialect.quote (Pattern.ofTerm text) := by
  rw [matchOf, Literal.ofText_of_not_isFunctionCall (Pattern.isFunctionCall_ofTerm text),
    ← String.toList_inj]
  simp [Settings.quoteColumn, Piece.chars, Dialect.quote]

/-- A search for texts is as true of a content as the disjunction of its patterns. -/
theorem truth?_texts {key : String} {v : Value} {f : Fragment} {row : Row String} {x : String}
    (hk : LeafKey.parse key = .ok k) (hop : k.operator = some (.like false))
    (hv : searched v = texts.map .text) (h : k.toSql s v = .ok f)
    (hrow : row.content (Identifier.ofColumn k.column s.tablePrefix) = some x) :
    f.truth? .texts row = some (.ofBool (texts.any fun text =>
      matchesPattern (Pattern.ofTerm text).toList x.toList)) := by
  have hcall : k.verbatim? v = none := by simp [verbatim?, hop]
  have hpatterns : patterns v = texts.map Pattern.ofTerm := by
    rw [patterns, hv, List.map_map]
    rfl
  obtain ⟨-, hmeans⟩ := means_like (ρ := Constant.ofText) hop (isColumn_of_parse hk _) h
  rw [isSettled_toSql hcall h] at hmeans
  rw [(hmeans.of_factor .or).truth? .texts row, hpatterns, List.map_map, List.map_map,
    ← Truth.any_map_ofBool]
  refine congrArg (fun ts => some (Truth.any ts)) (List.map_congr_left fun text _ => ?_)
  rw [Function.comp_apply, Function.comp_apply, Atom.truth, hrow]
  exact if_neg Bool.false_ne_true

/-- The key of a search asks of a column what its terms say: a term becomes a condition whose
literal, read by the rules of the dialect, is a pattern that exactly the texts match that hold the
stem of the term at its place, and several terms become a condition that is true of exactly the
contents that one of them matches. -/
theorem search_finds_terms (s : Settings) (raw : Bool) {column : String}
    (hcolumn : Key.IsColumn column.toList) :
    let k : LeafKey := ⟨raw, column, some (.like false)⟩
    LeafKey.parse ((if raw then "#" else "") ++ column ++ "[~]") = .ok k ∧
      (∀ t : SearchTerm, ∃ literal pattern,
        (k.toSql s (.text t.text)).map (Fragment.text s) =
            .ok (s.quoteColumn column ++ " LIKE " ++ literal) ∧
          s.dialect.takeLiteral? literal = some (pattern, "") ∧
          (∀ c ∈ pattern.toList, c = '%' ∨ isStemChar c = true) ∧
          ∀ v : String, matchesPattern pattern.toList v.toList = true ↔ t.Matches v) ∧
      ∀ ts : List SearchTerm, ts ≠ [] →
        ∃ f, k.toSql s (.list (ts.map fun t => .text t.text)) = .ok f ∧
          ∀ (row : Row String) (v : String),
            row.content (Identifier.ofColumn column s.tablePrefix) = some v →
              f.truth? .texts row = some (.ofBool (ts.any fun t => t.Matches v)) ∧
                (s.quoteStyle.AbsentFrom s.tablePrefix →
                  Sql.truth? .texts row s (f.text s) =
                    some (.ofBool (ts.any fun t => t.Matches v))) := by
  intro k
  have hkey : (if raw then "#" else "") ++ column ++ "[~]" = k.text Operator.suffix := by
    rw [← String.toList_inj]
    cases raw <;> simp [k, Key.text, Key.ending, Operator.suffix]
  have hk : LeafKey.parse ((if raw then "#" else "") ++ column ++ "[~]") = .ok k :=
    (Key.parse_eq_ok_iff_text Operator.ofSuffix?_eq_some_iff).2 ⟨hcolumn, hkey.symm⟩
  refine ⟨hk, fun t => ?_, fun ts hne => ?_⟩
  · refine ⟨s.dialect.quote (Pattern.ofTerm t.text), Pattern.ofTerm t.text, ?_,
      s.dialect.takeLiteral?_quote _, fun c => t.wildcard_of_mem_ofTerm,
      t.matchesPattern_ofTerm_iff⟩
    have hsingle : k.toSql s (.text t.text) = .ok (matchOf (s.column column) raw false t.text) :=
      toSql_texts rfl (List.cons_ne_nil t.text []) rfl
    rw [hsingle]
    exact congrArg Except.ok (text_matchOf (k := k) t.text)
  · have hv : searched (.list (ts.map fun t => .text t.text)) =
        (ts.map SearchTerm.text).map .text := by
      rw [List.map_map]
      rfl
    have hf := toSql_texts (k := k) (s := s) rfl (by simpa using hne) hv
    refine ⟨_, hf, fun row v hrow => ?_⟩
    have htruth := truth?_texts hk rfl hv hf hrow
    have hany : ((ts.map SearchTerm.text).any fun text =>
        matchesPattern (Pattern.ofTerm text).toList v.toList) = ts.any fun t => t.Matches v := by
      rw [List.any_map]
      refine congrArg ts.any (funext fun t => ?_)
      rw [Bool.eq_iff_iff, Function.comp_apply, t.matchesPattern_ofTerm_iff, decide_eq_true_iff]
    rw [hany] at htruth
    refine ⟨htruth, fun hpre => ?_⟩
    have hcall : k.verbatim? (.list (ts.map fun t => .text t.text)) = none := rfl
    rw [truth?_text .texts row hk hpre hcall hf Constant.ofText, isSettled_toSql hcall hf, htruth]

/-- A stem with a quotation mark in it is found at the start of a text, and one of two stems at the
end of it. -/
theorem search_finds_terms_quoted :
    Key.IsColumn "p.tag".toList ∧
      (∃ literal pattern, "`w_p`.`tag` LIKE 'it''s%'" = "`w_p`.`tag` LIKE " ++ literal ∧
        Dialect.mysql.takeLiteral? literal = some (pattern, "") ∧
        matchesPattern pattern.toList "it's".toList = true ∧
        matchesPattern pattern.toList "so it's".toList = false) ∧
      Sql.truth? .texts (sameText "to it's") ⟨.mysql, .backtick, "w_"⟩
        "(`w_p`.`tag` LIKE 'it''s%' OR `w_p`.`tag` LIKE '%''s')" = some .true := by
  let s : Settings := ⟨.mysql, .backtick, "w_"⟩
  let start : SearchTerm := ⟨"it's", .start, by decide, List.all_eq_true.1 (by decide)⟩
  let finish : SearchTerm := ⟨"'s", .finish, by decide, List.all_eq_true.1 (by decide)⟩
  let k : LeafKey := ⟨false, "p.tag", some (.like false)⟩
  have hcolumn : Key.IsColumn "p.tag".toList := Key.columnFault?_eq_none_iff.1 (by decide)
  obtain ⟨-, hterm, hterms⟩ := search_finds_terms s false hcolumn
  refine ⟨hcolumn, ?_, ?_⟩
  · obtain ⟨literal, pattern, htext, hliteral, -, hmatches⟩ := hterm start
    have hwritten : (k.toSql s (.text start.text)).map (Fragment.text s) =
        .ok "`w_p`.`tag` LIKE 'it''s%'" := by
      decide +kernel
    have hquoted : s.quoteColumn "p.tag" = "`w_p`.`tag`" := by decide +kernel
    rw [hquoted] at htext
    refine ⟨literal, pattern, Except.ok.inj (hwritten.symm.trans htext), hliteral,
      (hmatches "it's").2 (by decide), ?_⟩
    rw [← Bool.not_eq_true, hmatches]
    decide
  · obtain ⟨f, hf, htruth⟩ := hterms [start, finish] (by simp)
    have hwritten : (k.toSql s (.list [.text start.text, .text finish.text])).map
        (Fragment.text s) = .ok "(`w_p`.`tag` LIKE 'it''s%' OR `w_p`.`tag` LIKE '%''s')" := by
      decide +kernel
    obtain ⟨g, hg, htext⟩ := Result.map_eq_ok_iff.1 hwritten
    obtain rfl : f = g := Except.ok.inj (hf.symm.trans hg)
    rw [← htext, (htruth (sameText "to it's") "to it's" rfl).2 (by decide)]
    decide

end LeafKey

end KeyedQuery
