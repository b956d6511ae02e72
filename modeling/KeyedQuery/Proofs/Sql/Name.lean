import KeyedQuery.Proofs.Sql.Atom

/-!
# Names of tables and columns

The parts of an identifier are cut out of the name that a caller gives and of the prefix of the
settings. If neither holds a mark of quotation then no part does, and the text of the identifier
falls back into its parts.
-/

namespace KeyedQuery

open Sql

/-! ## Characters of segments -/

theorem Text.mem_of_mem_splitOnP {p : Char → Bool} {cs piece : List Char}
    (hpiece : piece ∈ splitOnP p cs) {c : Char} (hc : c ∈ piece) : c ∈ cs := by
  induction cs generalizing piece with
  | nil =>
      obtain rfl : piece = [] := by simpa using hpiece
      exact hc
  | cons d cs ih =>
      rw [splitOnP] at hpiece
      split at hpiece
      · rcases List.mem_cons.1 hpiece with rfl | hpiece
        · simp at hc
        · exact List.mem_cons_of_mem _ (ih hpiece hc)
      split at hpiece
      · obtain rfl : piece = [d] := by simpa using hpiece
        exact List.mem_cons.2 (.inl (List.mem_singleton.1 hc))
      · next first pieces hsplit =>
          rcases List.mem_cons.1 hpiece with rfl | hpiece
          · rcases List.mem_cons.1 hc with rfl | hc
            · exact List.mem_cons_self
            · exact List.mem_cons_of_mem _ (ih (by rw [hsplit]; exact List.mem_cons_self) hc)
          · exact List.mem_cons_of_mem _
              (ih (by rw [hsplit]; exact List.mem_cons_of_mem _ hpiece) hc)

namespace QuoteStyle

variable {q : QuoteStyle} {name text tablePrefix : String}

theorem AbsentFrom.mono (h : q.AbsentFrom name) (hsub : text.toList ⊆ name.toList) :
    q.AbsentFrom text :=
  ⟨fun hmem => h.1 (hsub hmem), fun hmem => h.2 (hsub hmem)⟩

theorem AbsentFrom.append (h : q.AbsentFrom name) (h' : q.AbsentFrom text) :
    q.AbsentFrom (name ++ text) := by
  refine ⟨?_, ?_⟩
  · rw [String.toList_append, List.mem_append, not_or]
    exact ⟨h.1, h'.1⟩
  · rw [String.toList_append, List.mem_append, not_or]
    exact ⟨h.2, h'.2⟩

theorem AbsentFrom.segment (h : q.AbsentFrom name) (hseg : text ∈ Identifier.segments name) :
    q.AbsentFrom text := by
  obtain ⟨piece, hpiece, rfl⟩ := List.mem_map.1 hseg
  refine h.mono fun c hc => ?_
  rw [String.toList_ofList] at hc
  exact Text.mem_of_mem_splitOnP hpiece hc

theorem AbsentFrom.splitMarker (h : q.AbsentFrom name) :
    q.AbsentFrom (Identifier.splitMarker name).2 := by
  unfold Identifier.splitMarker
  split
  · next rest heq =>
      refine h.mono fun c hc => ?_
      rw [String.toList_ofList] at hc
      rw [heq]
      exact List.mem_cons_of_mem _ hc
  · exact h

theorem AbsentFrom.beforeStar (h : q.AbsentFrom name)
    (hstar : Identifier.beforeStar? name = some text) : q.AbsentFrom text := by
  obtain ⟨cs, hcs, rfl⟩ := Option.map_eq_some_iff.1 hstar
  refine h.mono fun c hc => ?_
  rw [String.toList_ofList] at hc
  rw [← (List.isSuffixOf?_eq_some_iff_append_eq.1 hcs)]
  exact List.mem_append_left _ hc

end QuoteStyle

/-! ## Identifiers -/

namespace Identifier

def AbsentFrom (q : QuoteStyle) (i : Identifier) : Prop :=
  ∀ text, .name text ∈ i → q.AbsentFrom text

variable {q : QuoteStyle} {name tablePrefix : String}

theorem absentFrom_ofTable (hname : q.AbsentFrom name) (hpre : q.AbsentFrom tablePrefix) :
    AbsentFrom q (ofTable name tablePrefix) := by
  intro text hmem
  unfold ofTable at hmem
  split at hmem
  · simp at hmem
  · next only hseg =>
      obtain rfl : text = tablePrefix ++ only := by simpa using hmem
      exact hpre.append (hname.segment (by rw [hseg]; exact List.mem_cons_self))
  · next first rest _ hseg =>
      rcases List.mem_cons.1 hmem with hfirst | hrest
      · obtain rfl : text = first := by simpa using hfirst
        exact hname.segment (by rw [hseg]; exact List.mem_cons_self)
      · obtain ⟨segment, hsegment, heq⟩ := List.mem_map.1 hrest
        obtain rfl : tablePrefix ++ segment = text := by simpa using heq
        exact hpre.append (hname.segment (by rw [hseg]; exact List.mem_cons_of_mem _ hsegment))

theorem absentFrom_ofColumn (hname : q.AbsentFrom name) (hpre : q.AbsentFrom tablePrefix) :
    AbsentFrom q (ofColumn name tablePrefix) := by
  have hname := hname.splitMarker
  intro text hmem
  simp only [ofColumn] at hmem
  split at hmem
  · simp at hmem
  split at hmem
  · next table hstar =>
      rcases List.mem_append.1 hmem with hmem | hmem
      · exact absentFrom_ofTable (hname.beforeStar hstar) hpre text hmem
      · simp at hmem
  split at hmem
  · simp at hmem
  · next only hseg =>
      obtain rfl : text = only := by simpa using hmem
      exact hname.segment (by rw [hseg]; exact List.mem_cons_self)
  · next table rest _ hseg =>
      rcases List.mem_cons.1 hmem with htable | hrest
      · obtain rfl : text = tablePrefix ++ table := by simpa using htable
        exact hpre.append (hname.segment (by rw [hseg]; exact List.mem_cons_self))
      · have hrest : text ∈ rest := by simpa using hrest
        exact hname.segment (by rw [hseg]; exact List.mem_cons_of_mem _ hrest)

theorem ofColumn_ne_nil (name tablePrefix : String) : ofColumn name tablePrefix ≠ [] := by
  simp only [ofColumn]
  split
  · simp
  split
  · simp
  split
  · next hseg => simp [segments, Text.splitOnP_ne_nil] at hseg
  · simp
  · simp

/-- A name without a star is a column. -/
theorem isColumn_ofColumn {name : String} (h : '*' ∉ name.toList)
    (tablePrefix : String) : (ofColumn name tablePrefix).IsColumn := by
  refine ⟨ofColumn_ne_nil name tablePrefix, ?_⟩
  have hrest : '*' ∉ (splitMarker name).2.toList := by
    unfold splitMarker
    split
    · next rest heq =>
        rw [heq] at h
        simpa using fun hmem => h (List.mem_cons_of_mem _ hmem)
    · exact h
  simp only [ofColumn]
  split
  · next heq =>
      rw [heq] at hrest
      simp at hrest
  split
  · next table hstar =>
      obtain ⟨cs, hcs, rfl⟩ := Option.map_eq_some_iff.1 hstar
      rw [← List.isSuffixOf?_eq_some_iff_append_eq.1 hcs] at hrest
      simp at hrest
  split
  · simp
  · simp
  · simp

theorem sound_toSql {s : Settings} {i : Identifier} (h : AbsentFrom s.quoteStyle i) :
    Fragment.Sound s i.toSql := by
  refine Fragment.Sound.join (by decide) fun f hf => ?_
  obtain ⟨part, hpart, rfl⟩ := List.mem_map.1 hf
  refine Fragment.Sound.singleton ?_
  cases part with
  | name text => exact h text hpart
  | star => exact (by decide : isCode "*" = true)

theorem tokens_cons_piece (p : Part) (f : Fragment) :
    Fragment.tokens (p.piece :: f) = p.token :: f.tokens := by
  cases p with
  | name text => exact Fragment.tokens_cons_name text f
  | star => exact Fragment.tokens_cons_code (by decide) f

theorem tokens_cons_point (p : Part) (f : Fragment) :
    Fragment.tokens (.code "." :: p.piece :: f) = .mark '.' :: Fragment.tokens (p.piece :: f) := by
  change Sql.tokens ([.char '.'] ++ Fragment.lexemes (p.piece :: f)) = _
  rw [Sql.tokens_append]
  · rfl
  · intro x hx y hy
    obtain rfl : Lexeme.char '.' = x := by simpa using hx
    cases p with
    | name text =>
        obtain rfl : Lexeme.name text = y := by simpa [Part.piece, Piece.lexemes] using hy
        rfl
    | star =>
        obtain rfl : Lexeme.char '*' = y := by simpa [Part.piece, Piece.lexemes] using hy
        rfl

/-- The text of an identifier falls back into its parts, whatever follows. -/
theorem tokens_toSql_append {i : Identifier} (hi : i ≠ []) (f : Fragment) :
    Fragment.tokens (i.toSql ++ f) = i.tokens ++ f.tokens := by
  induction i with
  | nil => exact absurd rfl hi
  | cons p i ih =>
      cases i with
      | nil => exact tokens_cons_piece p f
      | cons q i =>
          have hsql : toSql (p :: q :: i) ++ f = p.piece :: .code "." :: (toSql (q :: i) ++ f) := by
            simp [toSql, Fragment.join_cons_cons]
          obtain ⟨g, hg⟩ : ∃ g, toSql (q :: i) ++ f = q.piece :: g := by
            cases i with
            | nil => exact ⟨f, rfl⟩
            | cons r i => exact ⟨_, by simp [toSql, Fragment.join_cons_cons]; rfl⟩
          rw [hsql, tokens_cons_piece, hg, tokens_cons_point, ← hg, ih (List.cons_ne_nil _ _),
            tokens_cons_cons]
          rfl

end Identifier

namespace Settings

variable {s : Settings} {name : String}

theorem sound_column (hname : s.quoteStyle.AbsentFrom name)
    (hpre : s.quoteStyle.AbsentFrom s.tablePrefix) : Fragment.Sound s (s.column name) :=
  Identifier.sound_toSql (Identifier.absentFrom_ofColumn hname hpre)

theorem sound_table (hname : s.quoteStyle.AbsentFrom name)
    (hpre : s.quoteStyle.AbsentFrom s.tablePrefix) : Fragment.Sound s (s.table name) :=
  Identifier.sound_toSql (Identifier.absentFrom_ofTable hname hpre)

/-- Neither the prefix nor any of the names holds a mark of quotation, and every one of the calls
stands outside all quotation. -/
structure Admits (s : Settings) (names calls : List String) : Prop where
  tablePrefix : s.quoteStyle.AbsentFrom s.tablePrefix
  names : ∀ name ∈ names, s.quoteStyle.AbsentFrom name
  calls : ∀ call ∈ calls, s.Plain call.toList

theorem Admits.mono {names calls names' calls' : List String} (h : s.Admits names calls)
    (hnames : names' ⊆ names) (hcalls : calls' ⊆ calls) : s.Admits names' calls' :=
  ⟨h.tablePrefix, fun name hname => h.names name (hnames hname),
    fun call hcall => h.calls call (hcalls hcall)⟩

theorem Admits.sound_column {names calls : List String} (h : s.Admits names calls)
    (hname : name ∈ names) : Fragment.Sound s (s.column name) :=
  s.sound_column (h.names name hname) h.tablePrefix

theorem Admits.sound_columns {names calls : List String} (h : s.Admits names calls)
    {separator : String} (hseparator : isCode separator = true) :
    Fragment.Sound s (Fragment.join separator (names.map s.column)) := by
  refine Fragment.Sound.join hseparator fun f hf => ?_
  obtain ⟨name, hname, rfl⟩ := List.mem_map.1 hf
  exact h.sound_column hname

end Settings

end KeyedQuery
