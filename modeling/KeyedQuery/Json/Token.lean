import KeyedQuery.Json.Basic

/-!
# Tokens of JSON text

JSON text is read in two stages: into tokens here, and from tokens into a value in
`KeyedQuery.Json.Parser`. A token is a bracket, a separator, a text or another value without parts.

A text may name a character beyond U+FFFF by two escapes of 16 bits. The body of a text is therefore
read into marks first, which are characters or 16-bit units, and the units are joined afterwards; a
unit that is half of a pair without the other half is refused.
-/

namespace KeyedQuery.Json

inductive Token where
  | openArray
  | closeArray
  | openObject
  | closeObject
  | comma
  | colon
  | text (s : String)
  | scalar (value : Json)

def isGap (c : Char) : Bool :=
  c == ' ' || c == '\t' || c == '\n' || c == '\r'

/-- A character of a text, or a 16-bit unit that an escape named. -/
inductive Mark where
  | char (c : Char)
  | unit (n : Nat)

def hexValue? (c : Char) : Option Nat :=
  if c.isDigit then some (c.toNat - '0'.toNat)
  else if 'a' ≤ c ∧ c ≤ 'f' then some (c.toNat - 'a'.toNat + 10)
  else if 'A' ≤ c ∧ c ≤ 'F' then some (c.toNat - 'A'.toNat + 10)
  else none

def hexUnit? (a b c d : Char) : Option Nat := do
  let a ← hexValue? a
  let b ← hexValue? b
  let c ← hexValue? c
  let d ← hexValue? d
  return ((a * 16 + b) * 16 + c) * 16 + d

def unescape? (c : Char) : Option Char :=
  if c = '"' ∨ c = '\\' ∨ c = '/' then some c
  else if c = 'b' then some '\x08'
  else if c = 'f' then some '\x0c'
  else if c = 'n' then some '\n'
  else if c = 'r' then some '\r'
  else if c = 't' then some '\t'
  else none

/-- Reads the body of a text up to its closing quote, and returns what follows the quote. -/
def readMarks : List Char → Option (List Mark × List Char)
  | [] => none
  | '"' :: rest => some ([], rest)
  | '\\' :: 'u' :: a :: b :: c :: d :: rest => do
      let n ← hexUnit? a b c d
      let (marks, rest) ← readMarks rest
      return (.unit n :: marks, rest)
  | '\\' :: c :: rest => do
      let c ← unescape? c
      let (marks, rest) ← readMarks rest
      return (.char c :: marks, rest)
  | c :: rest =>
      if c = '\\' ∨ c.toNat < 0x20 then none
      else do
        let (marks, rest) ← readMarks rest
        return (.char c :: marks, rest)

def isLeading (n : Nat) : Bool := 0xD800 ≤ n && n < 0xDC00

def isTrailing (n : Nat) : Bool := 0xDC00 ≤ n && n < 0xE000

/-- Joins units into characters, and refuses a half without its other half. -/
def joinMarks : List Mark → Option (List Char)
  | [] => some []
  | .char c :: rest => (joinMarks rest).map (c :: ·)
  | .unit a :: .unit b :: rest =>
      if isLeading a && isTrailing b then
        (joinMarks rest).map (Char.ofNat (0x10000 + (a - 0xD800) * 0x400 + (b - 0xDC00)) :: ·)
      else if isLeading a || isTrailing a then none
      else (joinMarks (.unit b :: rest)).map (Char.ofNat a :: ·)
  | .unit a :: rest =>
      if isLeading a || isTrailing a then none
      else (joinMarks rest).map (Char.ofNat a :: ·)

def readText? (cs : List Char) : Option (String × List Char) := do
  let (marks, rest) ← readMarks cs
  let text ← joinMarks marks
  return (String.ofList text, rest)

def isNumberChar (c : Char) : Bool :=
  c.isDigit || c == '-' || c == '+' || c == '.' || c == 'e' || c == 'E'

/-- A JSON numeral has digits before its point, no superfluous zero in front, and digits after its
point if it has one. -/
def isJsonNumeral (p : Numeral.Parts) : Bool :=
  p.whole != [] && (p.whole == ['0'] || p.whole.head? != some '0') && p.fraction != some []

/-- The number that a numeral names. A numeral without point and exponent is an integer if it fits
64 bits, minus zero apart; every other one is rounded, and refused if that overflows. -/
def Number.ofParts? (negative : Bool) (p : Numeral.Parts) : Option Number :=
  let magnitude := p.value
  let n : Int := if negative then -(magnitude.digits : Int) else magnitude.digits
  if h : p.fraction = none ∧ p.exponent = none ∧ (n ≠ 0 ∨ negative = false) ∧
      -9223372036854775808 ≤ n ∧ n < 18446744073709551616 then
    some (.int n h.2.2.2)
  else
    match Binary64.ofDecimal negative magnitude with
    | .finite x => some (.real x)
    | .infinite _ => none
    | .nan => none

def Number.read? : List Char → Option Number
  | '-' :: cs => (Numeral.scan cs).bind fun p =>
      if isJsonNumeral p then Number.ofParts? true p else none
  | cs => (Numeral.scan cs).bind fun p =>
      if isJsonNumeral p then Number.ofParts? false p else none

def Token.read? (c : Char) (rest : List Char) : Option (Token × List Char) :=
  if c = '[' then some (.openArray, rest)
  else if c = ']' then some (.closeArray, rest)
  else if c = '\x7b' then some (.openObject, rest)
  else if c = '\x7d' then some (.closeObject, rest)
  else if c = ',' then some (.comma, rest)
  else if c = ':' then some (.colon, rest)
  else if c = '"' then (readText? rest).map fun p => (.text p.1, p.2)
  else if c = 't' ∧ rest.take 3 = ['r', 'u', 'e'] then some (.scalar (.bool true), rest.drop 3)
  else if c = 'f' ∧ rest.take 4 = ['a', 'l', 's', 'e'] then
    some (.scalar (.bool false), rest.drop 4)
  else if c = 'n' ∧ rest.take 3 = ['u', 'l', 'l'] then some (.scalar .null, rest.drop 3)
  else
    (Number.read? (c :: rest.takeWhile isNumberChar)).map fun n =>
      (.scalar (.num n), rest.dropWhile isNumberChar)

theorem length_of_readMarks {cs : List Char} {marks : List Mark} {rest : List Char}
    (h : readMarks cs = some (marks, rest)) : rest.length < cs.length := by
  fun_induction readMarks cs generalizing marks rest with
  | case1 => simp at h
  | case2 tail =>
      obtain ⟨-, rfl⟩ := Prod.mk.inj (Option.some.inj h)
      simp
  | case3 a b c d tail ih =>
      simp only [Option.bind_eq_bind, Option.bind_eq_some_iff] at h
      obtain ⟨n, -, ⟨marks', rest'⟩, hrest, heq⟩ := h
      obtain ⟨-, rfl⟩ := Prod.mk.inj (Option.some.inj heq)
      have := ih hrest
      simp only [List.length_cons]
      omega
  | case4 c tail hne ih =>
      simp only [Option.bind_eq_bind, Option.bind_eq_some_iff] at h
      obtain ⟨n, -, ⟨marks', rest'⟩, hrest, heq⟩ := h
      obtain ⟨-, rfl⟩ := Prod.mk.inj (Option.some.inj heq)
      have := ih hrest
      simp only [List.length_cons]
      omega
  | case5 c tail hne hne' hne'' => simp at h
  | case6 c tail hne hne' hne'' hc ih =>
      simp only [Option.bind_eq_bind, Option.bind_eq_some_iff] at h
      obtain ⟨⟨marks', rest'⟩, hrest, heq⟩ := h
      obtain ⟨-, rfl⟩ := Prod.mk.inj (Option.some.inj heq)
      have := ih hrest
      simp only [List.length_cons]
      omega

theorem length_of_read? {c : Char} {cs rest : List Char} {t : Token}
    (h : Token.read? c cs = some (t, rest)) : rest.length ≤ cs.length := by
  unfold Token.read? at h
  split at h; · obtain ⟨-, rfl⟩ := Prod.mk.inj (Option.some.inj h); exact Nat.le_refl _
  split at h; · obtain ⟨-, rfl⟩ := Prod.mk.inj (Option.some.inj h); exact Nat.le_refl _
  split at h; · obtain ⟨-, rfl⟩ := Prod.mk.inj (Option.some.inj h); exact Nat.le_refl _
  split at h; · obtain ⟨-, rfl⟩ := Prod.mk.inj (Option.some.inj h); exact Nat.le_refl _
  split at h; · obtain ⟨-, rfl⟩ := Prod.mk.inj (Option.some.inj h); exact Nat.le_refl _
  split at h; · obtain ⟨-, rfl⟩ := Prod.mk.inj (Option.some.inj h); exact Nat.le_refl _
  split at h
  · obtain ⟨⟨s, r⟩, hread, heq⟩ := Option.map_eq_some_iff.1 h
    obtain ⟨-, rfl⟩ := Prod.mk.inj heq
    simp only [readText?, Option.bind_eq_bind, Option.bind_eq_some_iff] at hread
    obtain ⟨⟨marks, r'⟩, hmarks, chars, -, hpair⟩ := hread
    obtain ⟨-, rfl⟩ := Prod.mk.inj (Option.some.inj hpair)
    exact Nat.le_of_lt (length_of_readMarks hmarks)
  split at h; · obtain ⟨-, rfl⟩ := Prod.mk.inj (Option.some.inj h); simp
  split at h; · obtain ⟨-, rfl⟩ := Prod.mk.inj (Option.some.inj h); simp
  split at h; · obtain ⟨-, rfl⟩ := Prod.mk.inj (Option.some.inj h); simp
  obtain ⟨n, -, heq⟩ := Option.map_eq_some_iff.1 h
  obtain ⟨-, rfl⟩ := Prod.mk.inj heq
  exact (List.dropWhile_sublist _).length_le

def tokenize (cs : List Char) : Option (List Token) :=
  match hgap : cs.dropWhile isGap with
  | [] => some []
  | c :: tail =>
      match hread : Token.read? c tail with
      | none => none
      | some (t, rest) =>
          have : rest.length < cs.length := by
            have hrest := length_of_read? hread
            have hlen := (List.dropWhile_sublist isGap (l := cs)).length_le
            rw [hgap, List.length_cons] at hlen
            omega
          (tokenize rest).map (t :: ·)
termination_by cs.length

end KeyedQuery.Json
