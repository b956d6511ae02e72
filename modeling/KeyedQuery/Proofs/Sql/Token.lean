import KeyedQuery.Proofs.Sql.Lexeme
import Mathlib.Data.List.SplitBy
import Mathlib.Data.List.TakeWhile

/-!
# Tokens of SQL text

Between quotations a text consists of words, numerals, signs and single marks, with blanks between
them. The characters of a word or of a sign belong together, and every other character stands for
itself. A fragment has the tokens of its pieces one after the other, as long as the code between two
pieces starts and ends with characters that belong to neither.
-/

namespace KeyedQuery

namespace Sql

inductive Keyword where
  | and
  | or
  | is
  | not
  | null
  | within
  | like
  | between
  | matching
  | against
deriving DecidableEq, Repr

namespace Keyword

def all : List Keyword :=
  [and, or, is, not, null, within, like, between, matching, against]

def spelling : Keyword → List Char
  | and => ['A', 'N', 'D']
  | or => ['O', 'R']
  | is => ['I', 'S']
  | not => ['N', 'O', 'T']
  | null => ['N', 'U', 'L', 'L']
  | within => ['I', 'N']
  | like => ['L', 'I', 'K', 'E']
  | between => ['B', 'E', 'T', 'W', 'E', 'E', 'N']
  | matching => ['M', 'A', 'T', 'C', 'H']
  | against => ['A', 'G', 'A', 'I', 'N', 'S', 'T']

def read? (word : List Char) : Option Keyword :=
  all.find? fun k => Text.sameLetterChars k.spelling word

end Keyword

inductive Sign where
  | equal
  | differs
  | less
  | lessOrEqual
  | greater
  | greaterOrEqual
deriving DecidableEq, Repr

def Sign.read? : List Char → Option Sign
  | ['='] => some equal
  | ['!', '='] => some differs
  | ['<', '>'] => some differs
  | ['<'] => some less
  | ['<', '='] => some lessOrEqual
  | ['>'] => some greater
  | ['>', '='] => some greaterOrEqual
  | _ => none

/-- A token of SQL text. -/
inductive Token where
  | name (text : String)
  | literal (text : String)
  | number (numeral : String)
  | keyword (k : Keyword)
  | sign (x : Sign)
  | mark (c : Char)
  | other (text : List Char)
deriving DecidableEq, Repr

def isWordChar (c : Char) : Bool :=
  c.isAlphanum || c == '_' || c == '.' || c == '-'

def isSignChar (c : Char) : Bool :=
  c == '=' || c == '!' || c == '<' || c == '>'

/-- Whether characters are an unsigned numeral: digits, and perhaps a point and more digits. -/
def isMagnitude (cs : List Char) : Bool :=
  let rest := cs.dropWhile Char.isDigit
  cs.head?.any Char.isDigit &&
    (rest.isEmpty || rest.head? == some '.' && rest.tail.all Char.isDigit)

def isNumeral : List Char → Bool
  | '-' :: cs => isMagnitude cs
  | cs => isMagnitude cs

namespace Lexeme

def char? : Lexeme → Option Char
  | char c => some c
  | name _ => none
  | literal _ => none
  | unclosed _ => none

/-- Whether two lexemes side by side belong to one token. -/
def joins : Lexeme → Lexeme → Bool
  | char c, char d => isWordChar c && isWordChar d || isSignChar c && isSignChar d
  | _, _ => false

end Lexeme

namespace Token

def ofChars (cs : List Char) : Token :=
  if isNumeral cs then number (String.ofList cs)
  else
    match Keyword.read? cs, Sign.read? cs, cs with
    | some k, _, _ => keyword k
    | none, some x, _ => sign x
    | none, none, [c] => mark c
    | none, none, cs => other cs

/-- The token of lexemes that belong together; a blank has none. -/
def ofRun? : List Lexeme → Option Token
  | [] => none
  | .name text :: _ => some (name text)
  | .literal text :: _ => some (literal text)
  | .unclosed rest :: _ => some (other rest)
  | .char c :: run =>
      if Text.isBlank c then none else some (ofChars (c :: run.filterMap Lexeme.char?))

end Token

def tokens (ls : List Lexeme) : List Token := (ls.splitBy Lexeme.joins).filterMap Token.ofRun?

@[simp] theorem tokens_nil : tokens [] = [] := rfl

theorem tokens_append {ls ms : List Lexeme}
    (h : ∀ x ∈ ls.getLast?, ∀ y ∈ ms.head?, x.joins y = false) :
    tokens (ls ++ ms) = tokens ls ++ tokens ms := by
  rw [tokens, List.splitBy_append h, List.filterMap_append]
  rfl

/-- The characters that belong to no word and to no sign. -/
def isGap (c : Char) : Bool := !isWordChar c && !isSignChar c

theorem Lexeme.joins_char_of_isGap {c : Char} (h : isGap c = true) (l : Lexeme) :
    l.joins (.char c) = false ∧ (Lexeme.char c).joins l = false := by
  obtain ⟨hword, hsign⟩ : isWordChar c = false ∧ isSignChar c = false := by
    simpa [isGap] using h
  cases l <;> simp [joins, hword, hsign]

def Lexeme.isGap : Lexeme → Bool
  | char c => Sql.isGap c
  | name _ => false
  | literal _ => false
  | unclosed _ => false

/-- No token goes over a border beside such a character. -/
theorem tokens_append_of_isGap {ls ms : List Lexeme}
    (h : ls.getLast?.any Lexeme.isGap = true ∨ ms.head?.any Lexeme.isGap = true) :
    tokens (ls ++ ms) = tokens ls ++ tokens ms := by
  have hgap {l : Lexeme} (hl : l.isGap = true) : ∃ c, l = .char c ∧ isGap c = true := by
    cases l with
    | char c => exact ⟨c, rfl, hl⟩
    | name _ => cases hl
    | literal _ => cases hl
    | unclosed _ => cases hl
  refine tokens_append fun x hx y hy => ?_
  rcases h with h | h
  · rw [hx] at h
    obtain ⟨c, rfl, hc⟩ := hgap h
    exact (Lexeme.joins_char_of_isGap hc y).2
  · rw [hy] at h
    obtain ⟨c, rfl, hc⟩ := hgap h
    exact (Lexeme.joins_char_of_isGap hc x).1

/-- Whether code keeps what stands after it in tokens of its own. -/
def endsInGap (text : String) : Bool := text.toList.getLast?.any isGap

/-- Whether code keeps what stands before it and what stands after it in tokens of their own. -/
def separates (text : String) : Bool := text.toList.head?.any isGap && endsInGap text

theorem endsInGap_iff {text : String} :
    endsInGap text = true ↔ (text.toList.map Lexeme.char).getLast?.any Lexeme.isGap = true := by
  rw [List.getLast?_map, Option.any_map]
  rfl

theorem separates_iff {text : String} : separates text = true ↔
    (text.toList.map Lexeme.char).head?.any Lexeme.isGap = true ∧ endsInGap text = true := by
  rw [List.head?_map, Option.any_map, separates, Bool.and_eq_true]
  rfl

end Sql

open Sql

namespace Fragment

def tokens (f : Fragment) : List Token := Sql.tokens f.lexemes

@[simp] theorem lexemes_cons (p : Piece) (f : Fragment) :
    lexemes (p :: f) = p.lexemes ++ lexemes f := rfl

@[simp] theorem lexemes_append (f g : Fragment) : lexemes (f ++ g) = lexemes f ++ lexemes g := by
  simp [lexemes]

@[simp] theorem tokens_nil : tokens [] = [] := rfl

theorem tokens_cons_code {text : String} (h : endsInGap text = true) (f : Fragment) :
    tokens (.code text :: f) = tokens [.code text] ++ tokens f := by
  have hsingle : lexemes [.code text] = text.toList.map Lexeme.char := List.append_nil _
  rw [tokens, tokens, hsingle]
  exact Sql.tokens_append_of_isGap (.inl (endsInGap_iff.1 h))

theorem tokens_append_code {text : String} (h : separates text = true) (f g : Fragment) :
    tokens (f ++ .code text :: g) = tokens f ++ (tokens [.code text] ++ tokens g) := by
  obtain ⟨hfirst, hlast⟩ := separates_iff.1 h
  rw [← tokens_cons_code hlast, tokens, lexemes_append]
  refine Sql.tokens_append_of_isGap (.inr ?_)
  rw [lexemes_cons, List.head?_append, Option.any_eq_true]
  obtain ⟨l, hl, hgap⟩ := (Option.any_eq_true _ _).1 hfirst
  exact ⟨l, by rw [Piece.lexemes, hl, Option.some_or], hgap⟩

@[simp] theorem tokens_cons_name (text : String) (f : Fragment) :
    tokens (.name text :: f) = .name text :: tokens f := by
  change Sql.tokens ([.name text] ++ f.lexemes) = _
  rw [Sql.tokens_append]
  · rfl
  · intro x hx y _
    obtain rfl : Lexeme.name text = x := by simpa using hx
    rfl

@[simp] theorem tokens_literal (text : String) : tokens [.literal text] = [.literal text] := rfl

theorem tokens_join {separator : String} (h : separates separator = true)
    (fragments : List Fragment) :
    tokens (join separator fragments) =
      (tokens [.code separator]).intercalate (fragments.map tokens) := by
  induction fragments with
  | nil => rfl
  | cons f fragments ih =>
      cases fragments with
      | nil => simp [List.intercalate]
      | cons g fragments =>
          rw [join_cons_cons, tokens_append_code h, ih]
          simp [List.intercalate]

theorem tokens_parens (f : Fragment) :
    tokens (parens f) = .mark '(' :: tokens f ++ [.mark ')'] := by
  rw [parens, List.cons_append, tokens_cons_code (by decide), tokens_append_code (by decide)]
  rfl

end Fragment

/-! ## Numerals -/

namespace Sql

def isNumeralChar (c : Char) : Bool := c.isDigit || c == '.' || c == '-'

theorem isNumeralChar_of_isMagnitude {cs : List Char} (h : isMagnitude cs = true) :
    cs ≠ [] ∧ ∀ c ∈ cs, isNumeralChar c = true := by
  simp only [isMagnitude, Bool.and_eq_true, Bool.or_eq_true] at h
  obtain ⟨hhead, htail⟩ := h
  refine ⟨by rintro rfl; simp at hhead, fun c hc => ?_⟩
  rw [← List.takeWhile_append_dropWhile (p := Char.isDigit) (l := cs), List.mem_append] at hc
  have hdigit : c.isDigit = true → isNumeralChar c = true := fun h => by simp [isNumeralChar, h]
  rcases hc with hc | hc
  · exact hdigit (List.mem_takeWhile_imp hc)
  · cases hrest : cs.dropWhile Char.isDigit with
    | nil => simp [hrest] at hc
    | cons d rest =>
        simp only [hrest, List.isEmpty_cons, Bool.false_eq_true, List.head?_cons, List.tail_cons,
          Option.some_beq_some, beq_iff_eq, List.all_eq_true, false_or] at htail
        obtain ⟨rfl, hall⟩ := htail
        rcases List.mem_cons.1 (hrest ▸ hc) with rfl | hc
        · rfl
        · exact hdigit (hall c hc)

theorem isNumeralChar_of_isNumeral {cs : List Char} (h : isNumeral cs = true) :
    cs ≠ [] ∧ ∀ c ∈ cs, isNumeralChar c = true := by
  unfold isNumeral at h
  split at h
  · next cs =>
      refine ⟨by simp, fun c hc => ?_⟩
      rcases List.mem_cons.1 hc with rfl | hc
      · rfl
      · exact (isNumeralChar_of_isMagnitude h).2 c hc
  · exact isNumeralChar_of_isMagnitude h

theorem isNumeralChar_iff (c : Char) :
    isNumeralChar c = true ↔ c.isDigit = true ∨ c = '.' ∨ c = '-' := by
  simp [isNumeralChar, or_assoc]

theorem isWordChar_of_isNumeralChar {c : Char} (h : isNumeralChar c = true) :
    isWordChar c = true ∧ Text.isBlank c = false ∧ isMark c = false := by
  rcases (isNumeralChar_iff c).1 h with hd | rfl | rfl
  · have hrange : 48 ≤ c.toNat ∧ c.toNat ≤ 57 := by simpa [Char.isDigit_iff_toNat] using hd
    refine ⟨by simp [isWordChar, Char.isAlphanum, hd], ?_, ?_⟩
    · simp [Text.isBlank, Text.inRanges, Text.blankRanges]
      omega
    · simp only [isMark, Bool.or_eq_false_iff, beq_eq_false_iff_ne]
      refine ⟨⟨⟨⟨?_, ?_⟩, ?_⟩, ?_⟩, ?_⟩ <;> rintro rfl <;> simp at hrange
  · decide
  · decide

end Sql

/-- A numeral is one token. -/
theorem Fragment.tokens_code_of_isNumeral {text : String} (h : isNumeral text.toList = true) :
    Fragment.tokens [.code text] = [.number text] := by
  obtain ⟨hne, hchars⟩ := isNumeralChar_of_isNumeral h
  have hjoins : ∀ c ∈ text.toList, ∀ d ∈ text.toList, (Lexeme.char c).joins (.char d) = true := by
    intro c hc d hd
    simp [Lexeme.joins, (isWordChar_of_isNumeralChar (hchars c hc)).1,
      (isWordChar_of_isNumeralChar (hchars d hd)).1]
  have hrun : (text.toList.map Lexeme.char).IsChain fun l m => l.joins m = true := by
    rw [List.isChain_map]
    exact (List.pairwise_of_forall_mem_list hjoins).isChain
  obtain ⟨c, cs, htext⟩ := List.exists_cons_of_ne_nil hne
  have hlexemes : lexemes [.code text] = text.toList.map Lexeme.char := List.append_nil _
  have hblank : Text.isBlank c = false :=
    (isWordChar_of_isNumeralChar (hchars c (by rw [htext]; exact List.mem_cons_self))).2.1
  have hcs : (cs.map Lexeme.char).filterMap Lexeme.char? = cs := by
    rw [List.filterMap_map]
    exact List.filterMap_some
  rw [tokens, hlexemes, Sql.tokens, List.splitBy_of_isChain (by simpa using hne) hrun]
  simp only [List.filterMap_cons, List.filterMap_nil, htext, List.map_cons, Token.ofRun?, hblank,
    Bool.false_eq_true, if_false, hcs]
  rw [← htext]
  simp [Token.ofChars, h]

end KeyedQuery
