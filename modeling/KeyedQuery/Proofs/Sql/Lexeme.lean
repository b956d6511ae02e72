import KeyedQuery.Sql.Fragment
import Mathlib.Data.List.Chain

/-!
# Reading quotation back

The first thing a server does with a statement is to tell what is quoted from what is not. `scan`
does this: it splits a text into string literals, read by the rules of the dialect, quoted
identifiers, read by the style of quoting, and single characters between them. A quotation that is
never closed takes the rest of the text.

A fragment is sound if its text falls back into its own pieces. That is a matter of the pieces,
which must not hold a quotation mark where none belongs, and of their order: two quotations side by
side would be read as one, since a mark written twice stands for itself.
-/

namespace KeyedQuery

namespace Sql

/-- A part of a text, as far as quotation goes. -/
inductive Lexeme where
  | char (c : Char)
  | name (text : String)
  | literal (text : String)
  | unclosed (rest : List Char)
deriving DecidableEq, Repr

def isMark (c : Char) : Bool :=
  c == '\'' || c == '"' || c == '\x60' || c == '[' || c == ']'

/-- Whether a text is code: it is not empty and holds no mark of quotation. -/
def isCode (text : String) : Bool :=
  !text.toList.isEmpty && text.toList.all fun c => !isMark c

theorem isCode_iff {text : String} :
    isCode text = true ↔ text.toList ≠ [] ∧ ∀ c ∈ text.toList, isMark c = false := by
  simp [isCode]

theorem isCode_append {a b : String} (ha : isCode a = true) (hb : isCode b = true) :
    isCode (a ++ b) = true := by
  rw [isCode_iff] at ha hb ⊢
  rw [String.toList_append]
  exact ⟨List.append_ne_nil_of_left_ne_nil ha.1 _, List.forall_mem_append.2 ⟨ha.2, hb.2⟩⟩

/-- The character that a backslash and the character `c` stand for: the null character if `c` is a
zero, and otherwise `c`. -/
def unescape (c : Char) : Char := if c = '0' then '\x00' else c

end Sql

open Sql

/-- Reads a string literal after its opening quote: its text, and what follows the closing quote. -/
def Dialect.readLiteral? (d : Dialect) : List Char → Option (List Char × List Char)
  | [] => none
  | '\'' :: '\'' :: rest => (readLiteral? d rest).map (Prod.map (List.cons '\'') id)
  | '\'' :: rest => some ([], rest)
  | '\\' :: c :: rest =>
      if d.escapesBackslash then (readLiteral? d rest).map (Prod.map (List.cons (unescape c)) id)
      else (readLiteral? d (c :: rest)).map (Prod.map (List.cons '\\') id)
  | c :: rest => (readLiteral? d rest).map (Prod.map (List.cons c) id)

/-- Reads a quoted identifier after its opening mark: its text, and what follows the closing
mark. -/
def QuoteStyle.readName? (q : QuoteStyle) : List Char → Option (List Char × List Char)
  | [] => none
  | [c] => if c = q.closing then some ([], []) else none
  | c :: e :: rest =>
      if c ≠ q.closing then (readName? q (e :: rest)).map (Prod.map (List.cons c) id)
      else if e = q.closing then (readName? q rest).map (Prod.map (List.cons e) id)
      else some ([], e :: rest)

namespace Sql.Lexeme

/-- What a quotation amounts to that starts with `mark` and is read as `read`. -/
def ofQuotation (lexeme : String → Lexeme) (mark : Char) (rest : List Char) :
    Option (List Char × List Char) → Lexeme × List Char
  | some (text, after) => (lexeme (String.ofList text), after)
  | none => (unclosed (mark :: rest), [])

def read (s : Settings) (c : Char) (rest : List Char) : Lexeme × List Char :=
  if c = '\'' then ofQuotation literal c rest (s.dialect.readLiteral? rest)
  else if c = s.quoteStyle.opening then ofQuotation name c rest (s.quoteStyle.readName? rest)
  else (char c, rest)

end Sql.Lexeme

theorem Sql.exists_of_map_cons_eq_some {o : Option (List Char × List Char)} {c : Char}
    {text rest : List Char} (h : o.map (Prod.map (List.cons c) id) = some (text, rest)) :
    ∃ tail, o = some (tail, rest) := by
  obtain ⟨⟨tail, r⟩, ho, heq⟩ := Option.map_eq_some_iff.1 h
  obtain ⟨-, hr⟩ := Prod.mk.inj heq
  exact ⟨tail, by rw [ho, show r = rest from hr]⟩

theorem Dialect.length_of_readLiteral? {d : Dialect} {cs text rest : List Char}
    (h : d.readLiteral? cs = some (text, rest)) : rest.length ≤ cs.length := by
  fun_induction d.readLiteral? cs generalizing text with
  | case1 => simp at h
  | case2 tail ih =>
      obtain ⟨t, ht⟩ := exists_of_map_cons_eq_some h
      have := ih ht
      simp only [List.length_cons]
      omega
  | case3 tail =>
      obtain ⟨-, rfl⟩ := Prod.mk.inj (Option.some.inj h)
      simp
  | case4 c tail _ ih =>
      obtain ⟨t, ht⟩ := exists_of_map_cons_eq_some h
      have := ih ht
      simp only [List.length_cons]
      omega
  | case5 c tail _ ih =>
      obtain ⟨t, ht⟩ := exists_of_map_cons_eq_some h
      have := ih ht
      simp only [List.length_cons] at this ⊢
      omega
  | case6 c tail _ _ _ ih =>
      obtain ⟨t, ht⟩ := exists_of_map_cons_eq_some h
      have := ih ht
      simp only [List.length_cons]
      omega

theorem QuoteStyle.length_of_readName? {q : QuoteStyle} {cs text rest : List Char}
    (h : q.readName? cs = some (text, rest)) : rest.length ≤ cs.length := by
  fun_induction q.readName? cs generalizing text with
  | case1 => simp at h
  | case2 =>
      obtain ⟨-, rfl⟩ := Prod.mk.inj (Option.some.inj h)
      simp
  | case3 => simp at h
  | case4 c e tail _ ih =>
      obtain ⟨t, ht⟩ := exists_of_map_cons_eq_some h
      have := ih ht
      simp only [List.length_cons] at this ⊢
      omega
  | case5 c tail _ ih =>
      obtain ⟨t, ht⟩ := exists_of_map_cons_eq_some h
      have := ih ht
      simp only [List.length_cons]
      omega
  | case6 c e tail _ _ =>
      obtain ⟨-, rfl⟩ := Prod.mk.inj (Option.some.inj h)
      simp

theorem Sql.Lexeme.length_ofQuotation {lexeme : String → Lexeme} {mark : Char} {rest : List Char}
    {o : Option (List Char × List Char)}
    (h : ∀ text after, o = some (text, after) → after.length ≤ rest.length) :
    (ofQuotation lexeme mark rest o).2.length ≤ rest.length := by
  cases o with
  | none => simp [ofQuotation]
  | some p => exact h p.1 p.2 rfl

theorem Sql.Lexeme.length_read (s : Settings) (c : Char) (rest : List Char) :
    (read s c rest).2.length ≤ rest.length := by
  unfold read
  split
  · exact length_ofQuotation fun _ _ => Dialect.length_of_readLiteral?
  split
  · exact length_ofQuotation fun _ _ => QuoteStyle.length_of_readName?
  · exact Nat.le_refl _

def Sql.scan (s : Settings) : List Char → List Lexeme
  | [] => []
  | c :: rest =>
      have := Lexeme.length_read s c rest
      (Lexeme.read s c rest).1 :: scan s (Lexeme.read s c rest).2
termination_by cs => cs.length

@[simp] theorem Sql.scan_nil (s : Settings) : scan s [] = [] := by
  rw [scan]

theorem Sql.scan_cons (s : Settings) (c : Char) (rest : List Char) :
    scan s (c :: rest) =
      (Lexeme.read s c rest).1 :: scan s (Lexeme.read s c rest).2 := by
  rw [scan]

/-! ## Quotations are read back -/

theorem Dialect.readLiteral?_cons_of_ne {d : Dialect} {c : Char} (rest : List Char)
    (hquote : c ≠ '\'') (hslash : c = '\\' → d.escapesBackslash = false) :
    d.readLiteral? (c :: rest) = (d.readLiteral? rest).map (Prod.map (List.cons c) id) := by
  by_cases hc : c = '\\'
  · subst hc
    cases rest with
    | nil => simp [readLiteral?]
    | cons e rest => simp [readLiteral?, hslash rfl]
  · rw [readLiteral?]
    · exact fun r h => absurd h hquote
    · exact hquote
    · exact fun e r h => absurd h hc

/-- An escaped text is read back in front of whatever is read behind it. -/
theorem Dialect.readLiteral?_escape_append (d : Dialect) (cs tail : List Char) :
    d.readLiteral? (cs.flatMap d.escapeChar ++ tail) =
      (d.readLiteral? tail).map (Prod.map (cs ++ ·) id) := by
  induction cs with
  | nil =>
      have hid : Prod.map (fun t : List Char => [] ++ t) (id : List Char → List Char) = id := rfl
      rw [List.flatMap_nil, List.nil_append, hid, Option.map_id_fun, id]
  | cons c cs ih =>
      have hcons : (d.readLiteral? tail).map (Prod.map (c :: cs ++ ·) id) =
          ((d.readLiteral? tail).map (Prod.map (cs ++ ·) id)).map (Prod.map (List.cons c) id) := by
        rw [Option.map_map]
        rfl
      rw [hcons, ← ih, List.flatMap_cons, List.append_assoc]
      by_cases hquote : c = '\''
      · subst hquote
        rw [show d.escapeChar '\'' = ['\'', '\''] from rfl]
        simp only [List.cons_append, List.nil_append, readLiteral?]
      by_cases hslash : d.escapesBackslash = true ∧ (c = '\\' ∨ c = '\x00')
      · obtain ⟨hd, rfl | rfl⟩ := hslash
        · rw [show d.escapeChar '\\' = ['\\', '\\'] by simp [escapeChar, hd]]
          simp only [List.cons_append, List.nil_append, readLiteral?, hd]
          rfl
        · rw [show d.escapeChar '\x00' = ['\\', '0'] by simp [escapeChar, hd]]
          simp only [List.cons_append, List.nil_append, readLiteral?, hd]
          rfl
      · have hchar : d.escapeChar c = [c] := by
          simp only [not_and, not_or] at hslash
          unfold escapeChar
          rw [if_neg hquote, if_neg (by simp; exact fun h => (hslash h).1),
            if_neg (by simp; exact fun h => (hslash h).2)]
        rw [hchar, List.singleton_append, readLiteral?_cons_of_ne _ hquote]
        intro hc
        by_contra hd
        exact hslash ⟨by simpa using hd, .inl hc⟩

/-- A quote ends a literal unless another one follows. -/
theorem Dialect.readLiteral?_quote (d : Dialect) {rest : List Char}
    (hrest : rest.head? ≠ some '\'') : d.readLiteral? ('\'' :: rest) = some ([], rest) := by
  cases rest with
  | nil => rfl
  | cons e rest =>
      rw [readLiteral?]
      intro tail h
      rw [(List.cons.inj h).1] at hrest
      exact hrest rfl

theorem Dialect.readLiteral?_escape (d : Dialect) (cs : List Char) {rest : List Char}
    (hrest : rest.head? ≠ some '\'') :
    d.readLiteral? (cs.flatMap d.escapeChar ++ '\'' :: rest) = some (cs, rest) := by
  rw [readLiteral?_escape_append, readLiteral?_quote d hrest, Option.map_some, Prod.map_apply,
    List.append_nil, id]

theorem QuoteStyle.readName?_append (q : QuoteStyle) {cs rest : List Char}
    (hcs : q.closing ∉ cs) (hrest : rest.head? ≠ some q.closing) :
    q.readName? (cs ++ q.closing :: rest) = some (cs, rest) := by
  induction cs with
  | nil =>
      cases rest with
      | nil => simp [readName?]
      | cons e rest =>
          have he : e ≠ q.closing := fun h => hrest (by rw [h]; rfl)
          simp [readName?, he]
  | cons c cs ih =>
      rw [List.mem_cons, not_or] at hcs
      have hc : c ≠ q.closing := fun h => hcs.1 h.symm
      obtain ⟨e, tail, htail⟩ : ∃ e tail, cs ++ q.closing :: rest = e :: tail :=
        List.exists_cons_of_ne_nil (by simp)
      rw [List.cons_append, htail, readName?, if_pos hc, ← htail, ih hcs.2]
      rfl

/-! ## Fragments fall back into their pieces -/

/-- Neither mark of the style stands in the text. -/
def QuoteStyle.AbsentFrom (q : QuoteStyle) (text : String) : Prop :=
  q.opening ∉ text.toList ∧ q.closing ∉ text.toList

instance (q : QuoteStyle) (text : String) : Decidable (q.AbsentFrom text) :=
  inferInstanceAs (Decidable (_ ∧ _))

def Settings.Plain (s : Settings) (cs : List Char) : Prop :=
  ∀ c ∈ cs, c ≠ '\'' ∧ c ≠ s.quoteStyle.opening ∧ c ≠ s.quoteStyle.closing

instance (s : Settings) (cs : List Char) : Decidable (s.Plain cs) :=
  List.decidableBAll _ cs

namespace Piece

def lexemes : Piece → List Lexeme
  | code text => text.toList.map .char
  | name text => [.name text]
  | literal text => [.literal text]
  | call text => text.toList.map .char

def isQuoted : Piece → Bool
  | code _ => false
  | name _ => true
  | literal _ => true
  | call _ => false

/-- A piece that holds no mark where none belongs. -/
def Sound (s : Settings) : Piece → Prop
  | code text => isCode text = true
  | name text => s.quoteStyle.AbsentFrom text
  | literal _ => True
  | call text => text ≠ "" ∧ s.Plain text.toList

end Piece

namespace Fragment

def lexemes (f : Fragment) : List Lexeme := f.flatMap Piece.lexemes

/-- A fragment whose pieces are sound, and in which no quotation follows directly on another. -/
structure Sound (s : Settings) (f : Fragment) : Prop where
  pieces : ∀ p ∈ f, p.Sound s
  apart : List.IsChain (fun p q => (p.isQuoted && q.isQuoted) = false) f

end Fragment

theorem Settings.plain_of_isCode (s : Settings) {text : String} (h : isCode text = true) :
    text.toList ≠ [] ∧ s.Plain text.toList := by
  obtain ⟨hne, hall⟩ := isCode_iff.1 h
  refine ⟨hne, fun c hc => ?_⟩
  have hmark := hall c hc
  simp only [isMark, Bool.or_eq_false_iff, beq_eq_false_iff_ne] at hmark
  obtain ⟨⟨⟨⟨hquote, hansi⟩, htick⟩, hopen⟩, hclose⟩ := hmark
  refine ⟨hquote, ?_, ?_⟩
  · cases s.quoteStyle <;> assumption
  · cases s.quoteStyle <;> assumption

theorem Sql.scan_append_of_plain {s : Settings} {cs : List Char} (h : s.Plain cs)
    (rest : List Char) : scan s (cs ++ rest) = cs.map .char ++ scan s rest := by
  induction cs with
  | nil => rfl
  | cons c cs ih =>
      obtain ⟨hquote, hopen, -⟩ := h c List.mem_cons_self
      have hread : Lexeme.read s c (cs ++ rest) = (.char c, cs ++ rest) := by
        simp [Lexeme.read, hquote, hopen]
      rw [List.cons_append, scan_cons, hread, ih fun d hd => h d (List.mem_cons_of_mem _ hd)]
      rfl

theorem Sql.scan_literal (s : Settings) (text : String) {rest : List Char}
    (hrest : rest.head? ≠ some '\'') :
    scan s (s.dialect.quoteChars text.toList ++ rest) = .literal text :: scan s rest := by
  have hread := s.dialect.readLiteral?_escape text.toList hrest
  rw [Dialect.quoteChars, List.append_assoc, List.cons_append, scan_cons, List.singleton_append,
    Lexeme.read, if_pos rfl, hread]
  simp [Lexeme.ofQuotation]

theorem Sql.scan_name {s : Settings} {text : String} (h : s.quoteStyle.AbsentFrom text)
    {rest : List Char} (hrest : rest.head? ≠ some s.quoteStyle.closing) :
    scan s (s.quoteStyle.quoteChars text.toList ++ rest) = .name text :: scan s rest := by
  have hread := s.quoteStyle.readName?_append h.2 hrest
  have hopen : s.quoteStyle.opening ≠ '\'' := by cases s.quoteStyle <;> decide
  rw [QuoteStyle.quoteChars, List.append_assoc, List.cons_append, scan_cons, List.singleton_append,
    Lexeme.read, if_neg hopen, if_pos rfl, hread]
  simp [Lexeme.ofQuotation]

theorem Settings.Plain.head?_ne {s : Settings} {cs : List Char} (h : s.Plain cs)
    (hcs : cs ≠ []) (rest : List Char) :
    (cs ++ rest).head? ≠ some '\'' ∧ (cs ++ rest).head? ≠ some s.quoteStyle.closing := by
  obtain ⟨c, cs, rfl⟩ := List.exists_cons_of_ne_nil hcs
  obtain ⟨hquote, -, hclose⟩ := h c List.mem_cons_self
  simp [hquote, hclose]

theorem Piece.Sound.plain_of_isQuoted {s : Settings} {p : Piece} (h : p.Sound s)
    (hp : p.isQuoted = false) :
    p.chars s ≠ [] ∧ s.Plain (p.chars s) ∧ p.lexemes = (p.chars s).map .char := by
  cases p with
  | code text => exact ⟨(s.plain_of_isCode h).1, (s.plain_of_isCode h).2, rfl⟩
  | call text => exact ⟨by simpa [Piece.chars] using h.1, h.2, rfl⟩
  | name text => simp [Piece.isQuoted] at hp
  | literal text => simp [Piece.isQuoted] at hp

namespace Fragment

theorem Sound.tail {s : Settings} {p : Piece} {f : Fragment} (h : Sound s (p :: f)) :
    Sound s f :=
  ⟨fun q hq => h.pieces q (List.mem_cons_of_mem _ hq), h.apart.tail⟩

theorem Sound.head?_ne {s : Settings} {p : Piece} {f : Fragment} (h : Sound s (p :: f))
    (hp : p.isQuoted = true) :
    (f.chars s).head? ≠ some '\'' ∧ (f.chars s).head? ≠ some s.quoteStyle.closing := by
  cases f with
  | nil => simp
  | cons q f =>
      have hq : q.isQuoted = false := by
        have := (List.isChain_cons_cons.1 h.apart).1
        rwa [hp, Bool.true_and] at this
      obtain ⟨hne, hplain, -⟩ := (h.tail.pieces q List.mem_cons_self).plain_of_isQuoted hq
      exact hplain.head?_ne hne (chars s f)

/-- The text of a sound fragment falls back into its pieces. -/
theorem scan_chars {s : Settings} {f : Fragment} (h : Sound s f) :
    scan s (f.chars s) = f.lexemes := by
  induction f with
  | nil => simp [lexemes]
  | cons p f ih =>
      have hp := h.pieces p List.mem_cons_self
      rw [chars_cons, lexemes, List.flatMap_cons]
      change _ = p.lexemes ++ lexemes f
      rw [← ih h.tail]
      cases hquoted : p.isQuoted with
      | false =>
          obtain ⟨-, hplain, hlex⟩ := hp.plain_of_isQuoted hquoted
          rw [scan_append_of_plain hplain, hlex]
      | true =>
          have hrest := h.head?_ne hquoted
          cases p with
          | name text => exact scan_name hp hrest.2
          | literal text => exact scan_literal s text hrest.1
          | code text => simp [Piece.isQuoted] at hquoted
          | call text => simp [Piece.isQuoted] at hquoted

/-! ### Putting sound fragments together -/

theorem Sound.nil (s : Settings) : Sound s [] := ⟨by simp, .nil⟩

theorem Sound.singleton {s : Settings} {p : Piece} (h : p.Sound s) : Sound s [p] :=
  ⟨by simpa using h, .singleton _⟩

theorem Sound.literal (s : Settings) (text : String) : Sound s [.literal text] :=
  .singleton trivial

theorem Sound.code {s : Settings} {text : String} (h : isCode text = true) :
    Sound s [.code text] :=
  .singleton h

theorem Sound.cons_code {s : Settings} {text : String} {f : Fragment} (hf : Sound s f)
    (h : isCode text = true) : Sound s (.code text :: f) := by
  refine ⟨List.forall_mem_cons.2 ⟨h, hf.pieces⟩, ?_⟩
  cases f with
  | nil => exact .singleton _
  | cons q f => exact List.isChain_cons_cons.2 ⟨rfl, hf.apart⟩

/-- A sound fragment that may stand behind any other, since no quotation comes first in it. -/
structure Trailing (s : Settings) (f : Fragment) : Prop where
  sound : Sound s f
  led : ∀ p ∈ f.head?, p.isQuoted = false

theorem Trailing.nil (s : Settings) : Trailing s [] := ⟨Sound.nil s, by simp⟩

theorem Sound.trailing_cons {s : Settings} {text : String} {f : Fragment} (hf : Sound s f)
    (h : isCode text = true) : Trailing s (.code text :: f) := by
  refine ⟨hf.cons_code h, ?_⟩
  rintro _ ⟨⟩
  rfl

theorem Sound.append {s : Settings} {f g : Fragment} (hf : Sound s f) (hg : Trailing s g) :
    Sound s (f ++ g) := by
  refine ⟨List.forall_mem_append.2 ⟨hf.pieces, hg.sound.pieces⟩,
    List.isChain_append.2 ⟨hf.apart, hg.sound.apart, ?_⟩⟩
  intro x _ y hy
  simp [hg.led y hy]

theorem Trailing.append {s : Settings} {f g : Fragment} (hf : Trailing s f)
    (hg : Trailing s g) : Trailing s (f ++ g) := by
  refine ⟨hf.sound.append hg, ?_⟩
  cases f with
  | nil => exact hg.led
  | cons p f => simpa using hf.led

theorem Trailing.flatten {s : Settings} {fragments : List Fragment}
    (h : ∀ f ∈ fragments, Trailing s f) : Trailing s fragments.flatten := by
  induction fragments with
  | nil => exact .nil s
  | cons f fragments ih =>
      rw [List.forall_mem_cons] at h
      exact h.1.append (ih h.2)

/-- Code keeps two sound fragments apart. -/
theorem Sound.append_code {s : Settings} {f g : Fragment} {text : String} (hf : Sound s f)
    (h : isCode text = true) (hg : Sound s g) : Sound s (f ++ .code text :: g) :=
  hf.append (hg.trailing_cons h)

theorem Sound.join {s : Settings} {separator : String} (hseparator : isCode separator = true)
    {fragments : List Fragment} (h : ∀ f ∈ fragments, Sound s f) :
    Sound s (join separator fragments) := by
  induction fragments with
  | nil => exact Sound.nil s
  | cons f fragments ih =>
      rw [List.forall_mem_cons] at h
      cases fragments with
      | nil =>
          rw [join_singleton]
          exact h.1
      | cons g fragments =>
          rw [join_cons_cons]
          exact h.1.append_code hseparator (ih h.2)

theorem Sound.parens {s : Settings} {f : Fragment} (h : Sound s f) : Sound s (parens f) := by
  have hopen : isCode "(" = true := by decide
  have hclose : isCode ")" = true := by decide
  exact (h.append_code hclose (Sound.nil s)).cons_code hopen

end Fragment

example : scan { dialect := .mysql } "\"a\" = 'b''c'".toList =
    [.name "a", .char ' ', .char '=', .char ' ', .literal "b'c"] := by
  cbv

end KeyedQuery
