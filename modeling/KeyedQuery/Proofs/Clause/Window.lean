import KeyedQuery.Proofs.Canonical.Clause
import KeyedQuery.Proofs.Soundness.Clause

/-!
# Windows of rows

A limit passes over some rows and takes some. The dialects write the two numbers in different orders
and under different keywords, and each of them is read here by the grammar that its own server
accepts: from the text to tokens, from the tokens to the symbols of a limit, and from the symbols to
the window. In all dialects the window is the same, and it is the one that the JSON form of the
limit names.
-/

namespace KeyedQuery

open Sql

structure Window where
  skip : Nat
  take : Nat
deriving DecidableEq, Repr

theorem Limit.toList_digits (n : UInt64) : (digits n).toList = Nat.toDigits 10 n.toNat :=
  Nat.toList_repr

/-- The rows that a limit stands for. -/
def Limit.window : Limit → Window
  | count n => ⟨0, n.toNat⟩
  | range o n => ⟨o.toNat, n.toNat⟩

/-! ## Symbols of a limit -/

namespace Window

inductive Symbol where
  | limit
  | offset
  | fetch
  /-- One of the words `FIRST` and `NEXT`, which mean the same. -/
  | first
  /-- One of the words `ROW` and `ROWS`. -/
  | rows
  | only
  | comma
  | number (n : Nat)
  | unknown
deriving DecidableEq, Repr

namespace Symbol

def words : List (String × Symbol) :=
  [("LIMIT", limit), ("OFFSET", offset), ("FETCH", fetch), ("FIRST", first), ("NEXT", first),
    ("ROW", rows), ("ROWS", rows), ("ONLY", only)]

def ofWord (word : List Char) : Symbol :=
  match words.find? fun w => Text.sameLetterChars w.1.toList word with
  | some (_, symbol) => symbol
  | none => unknown

def ofToken : Token → Symbol
  | .number numeral =>
      match Numeral.digits? numeral.toList with
      | some n => number n
      | none => unknown
  | .mark c => if c = ',' then comma else unknown
  | .other word => ofWord word
  | .name _ | .literal _ | .keyword _ | .sign _ => unknown

def ofText (s : Settings) (text : String) : List Symbol :=
  (tokens (scan s text.toList)).map ofToken

end Symbol

/-- Reads the symbols of a limit by the grammar of a dialect. MySQL and SQLite put the rows to pass
over before a comma or behind `OFFSET`, PostgreSQL takes its two clauses in either order, and the
standard form of Oracle and SQL Server needs a number of rows to pass over in the latter only. -/
def read? : Dialect → List Symbol → Option Window
  | .mysql, symbols | .sqlite, symbols =>
      match symbols with
      | [.limit, .number n] => some ⟨0, n⟩
      | [.limit, .number o, .comma, .number n] => some ⟨o, n⟩
      | [.limit, .number n, .offset, .number o] => some ⟨o, n⟩
      | _ => none
  | .postgres, symbols =>
      match symbols with
      | [.limit, .number n] => some ⟨0, n⟩
      | [.limit, .number n, .offset, .number o] => some ⟨o, n⟩
      | [.offset, .number o, .limit, .number n] => some ⟨o, n⟩
      | _ => none
  | .oracle, symbols =>
      match symbols with
      | [.fetch, .first, .number n, .rows, .only] => some ⟨0, n⟩
      | [.offset, .number o, .rows, .fetch, .first, .number n, .rows, .only] => some ⟨o, n⟩
      | _ => none
  | .mssql, symbols =>
      match symbols with
      | [.offset, .number o, .rows, .fetch, .first, .number n, .rows, .only] => some ⟨o, n⟩
      | _ => none
  | .sybase, _ => none

/-- Reads the clause of a limit as the server of a dialect does. -/
def ofText? (s : Settings) (text : String) : Option Window :=
  read? s.dialect (Symbol.ofText s text)

namespace Symbol

variable {s : Settings} {text word : String}

theorem ofText_of_isCode (h : isCode text = true) :
    ofText s text = (tokens (text.toList.map Lexeme.char)).map ofToken := by
  have hscan := scan_append_of_plain (s.plain_of_isCode h).2 []
  rw [List.append_nil, scan_nil, List.append_nil] at hscan
  rw [ofText, hscan]

/-- The symbols of code are those of its two parts, if no word goes over the border. -/
theorem ofText_append (htext : isCode text = true) (hword : isCode word = true)
    (hgap : endsInGap text = true ∨
      (word.toList.map Lexeme.char).head?.any Lexeme.isGap = true) :
    ofText s (text ++ word) = ofText s text ++ ofText s word := by
  rw [ofText_of_isCode (isCode_append htext hword), ofText_of_isCode htext,
    ofText_of_isCode hword, String.toList_append, List.map_append,
    tokens_append_of_isGap (hgap.imp_left endsInGap_iff.1), List.map_append]

theorem ofText_digits (s : Settings) (n : UInt64) :
    ofText s (Limit.digits n) = [number n.toNat] := by
  have htokens := Fragment.tokens_code_of_isNumeral (Limit.isNumeral_digits n)
  have hlexemes : Fragment.lexemes [.code (Limit.digits n)] =
      (Limit.digits n).toList.map Lexeme.char := List.append_nil _
  rw [Fragment.tokens, hlexemes] at htokens
  have hread : Numeral.digits? (Limit.digits n).toList = some n.toNat := by
    rw [Limit.toList_digits, Numeral.digits?_toDigits]
  rw [ofText_of_isCode (Limit.isCode_digits n), htokens]
  simp [ofToken, hread]

theorem ofText_number (htext : isCode text = true) (hgap : endsInGap text = true) (n : UInt64) :
    ofText s (text ++ Limit.digits n) = ofText s text ++ [number n.toNat] := by
  rw [ofText_append htext (Limit.isCode_digits n) (.inl hgap), ofText_digits]

theorem ofText_number_number {between : String} (htext : isCode text = true)
    (hgap : endsInGap text = true) (hbetween : isCode between = true)
    (hseparates : separates between = true) (o n : UInt64) :
    ofText s (text ++ Limit.digits o ++ between ++ Limit.digits n) =
      ofText s text ++ [number o.toNat] ++ ofText s between ++ [number n.toNat] := by
  obtain ⟨hhead, hlast⟩ := separates_iff.1 hseparates
  have hfirst := isCode_append htext (Limit.isCode_digits o)
  have hlast' : endsInGap (text ++ Limit.digits o ++ between) = true := by
    have hne := (isCode_iff.1 hbetween).1
    rw [endsInGap, String.toList_append, List.getLast?_append_of_ne_nil _ hne]
    exact hlast
  rw [ofText_number (isCode_append hfirst hbetween) hlast',
    ofText_append hfirst hbetween (.inr hhead), ofText_number htext hgap]

theorem ofText_rows_only (htext : isCode text = true) :
    ofText s (text ++ " ROWS ONLY") = ofText s text ++ [rows, only] := by
  have hwords : isCode " ROWS ONLY" = true := by decide
  rw [ofText_append htext hwords (.inr (by decide)), ofText_of_isCode hwords]
  rfl

end Symbol

/-! ## Clauses read back -/

variable {s : Settings} {limit : Limit} {ordered : Bool} {text : String}

open Limit (digits isCode_digits)

theorem ofText_limit (s : Settings) (n : UInt64) :
    Symbol.ofText s (" LIMIT " ++ digits n) = [.limit, .number n.toNat] := by
  rw [Symbol.ofText_number (by decide) (by decide), Symbol.ofText_of_isCode (by decide)]
  rfl

theorem ofText_limit_comma (s : Settings) (o n : UInt64) :
    Symbol.ofText s (" LIMIT " ++ digits o ++ "," ++ digits n) =
      [.limit, .number o.toNat, .comma, .number n.toNat] := by
  rw [Symbol.ofText_number_number (by decide) (by decide) (by decide) (by decide),
    Symbol.ofText_of_isCode (by decide), Symbol.ofText_of_isCode (by decide)]
  rfl

theorem ofText_offset_limit (s : Settings) (o n : UInt64) :
    Symbol.ofText s (" OFFSET " ++ digits o ++ " LIMIT " ++ digits n) =
      [.offset, .number o.toNat, .limit, .number n.toNat] := by
  rw [Symbol.ofText_number_number (by decide) (by decide) (by decide) (by decide),
    Symbol.ofText_of_isCode (by decide), Symbol.ofText_of_isCode (by decide)]
  rfl

theorem ofText_fetch (s : Settings) (n : UInt64) :
    Symbol.ofText s (" FETCH FIRST " ++ digits n ++ " ROWS ONLY") =
      [.fetch, .first, .number n.toNat, .rows, .only] := by
  have hcode : isCode " FETCH FIRST " = true := by decide
  rw [Symbol.ofText_rows_only (isCode_append hcode (isCode_digits n)),
    Symbol.ofText_number hcode (by decide), Symbol.ofText_of_isCode hcode]
  rfl

theorem ofText_offset_fetch (s : Settings) (o n : UInt64) :
    Symbol.ofText s (" OFFSET " ++ digits o ++ " ROWS FETCH NEXT " ++ digits n ++ " ROWS ONLY") =
      [.offset, .number o.toNat, .rows, .fetch, .first, .number n.toNat, .rows, .only] := by
  have hoffset : isCode " OFFSET " = true := by decide
  have hfetch : isCode " ROWS FETCH NEXT " = true := by decide
  have hcode := isCode_append (isCode_append (isCode_append hoffset (isCode_digits o)) hfetch)
    (isCode_digits n)
  rw [Symbol.ofText_rows_only hcode,
    Symbol.ofText_number_number hoffset (by decide) hfetch (by decide),
    Symbol.ofText_of_isCode hoffset, Symbol.ofText_of_isCode hfetch]
  rfl

/-- A clause is read back by the server as the window of the limit. -/
theorem ofText?_toSql (h : limit.toSql s.dialect ordered = .ok text) :
    ofText? s text = some limit.window := by
  rw [ofText?]
  generalize s.dialect = d at h
  cases d with
  | mysql | sqlite =>
      cases limit with
      | count n =>
          obtain rfl := Except.ok.inj h
          exact congrArg (read? .mysql) (ofText_limit s n)
      | range o n =>
          obtain rfl := Except.ok.inj h
          exact congrArg (read? .mysql) (ofText_limit_comma s o n)
  | postgres =>
      cases limit with
      | count n =>
          obtain rfl := Except.ok.inj h
          exact congrArg (read? .postgres) (ofText_limit s n)
      | range o n =>
          obtain rfl := Except.ok.inj h
          exact congrArg (read? .postgres) (ofText_offset_limit s o n)
  | oracle =>
      cases limit with
      | count n =>
          obtain rfl := Except.ok.inj h
          exact congrArg (read? .oracle) (ofText_fetch s n)
      | range o n =>
          obtain rfl := Except.ok.inj h
          exact congrArg (read? .oracle) (ofText_offset_fetch s o n)
  | mssql =>
      have hfetch (o n : UInt64) : read? .mssql (Symbol.ofText s
          (" OFFSET " ++ digits o ++ " ROWS FETCH NEXT " ++ digits n ++ " ROWS ONLY")) =
            some ⟨o.toNat, n.toNat⟩ :=
        congrArg (read? .mssql) (ofText_offset_fetch s o n)
      cases ordered with
      | false => cases limit <;> simp [Limit.toSql, Dialect.lacks] at h
      | true =>
          cases limit with
          | count n =>
              obtain rfl := Except.ok.inj h
              have hzero : " OFFSET " ++ digits 0 ++ " ROWS FETCH NEXT " =
                  " OFFSET 0 ROWS FETCH NEXT " := by decide
              exact hzero ▸ hfetch 0 n
          | range o n =>
              obtain rfl := Except.ok.inj h
              exact hfetch o n
  | sybase => simp [Limit.toSql, Dialect.lacks] at h

end Window

/-! ## Numbers in JSON -/

theorem Numeral.readUInt64?_toDigits (n : UInt64) :
    readUInt64? (Nat.toDigits 10 n.toNat) = some n := by
  have hplus : unsigned? (Nat.toDigits 10 n.toNat) = digits? (Nat.toDigits 10 n.toNat) := by
    unfold unsigned?
    split
    · next cs hcs =>
        have hdigit := isDigit_of_mem_toDigits (c := '+') (n := n.toNat) (by simp [hcs])
        simp at hdigit
    · rfl
  rw [readUInt64?, hplus, digits?_toDigits, Option.bind_some, uint64?_eq_some_iff]

namespace Limit

/-- A number in JSON: an integer, or its decimal text between blanks. -/
inductive Denotes : Json → UInt64 → Prop
  | integer (n : UInt64) (h : -9223372036854775808 ≤ (n.toNat : Int) ∧
      (n.toNat : Int) < 18446744073709551616) : Denotes (.num (.int n.toNat h)) n
  | text (n : UInt64) (before after : String) (hbefore : ∀ c ∈ before.toList, Text.isBlank c = true)
      (hafter : ∀ c ∈ after.toList, Text.isBlank c = true) :
      Denotes (.str (before ++ digits n ++ after)) n

theorem Denotes.readNumber? {j : Json} {n : UInt64} (h : Denotes j n) :
    Limit.readNumber? j = some n := by
  cases h with
  | integer n h => exact readNumber?_numberToJson n
  | text n before after hbefore hafter =>
      have htrim : Text.trimChars (before ++ digits n ++ after).toList =
          Nat.toDigits 10 n.toNat := by
        rw [String.toList_append, String.toList_append, toList_digits]
        refine Text.trimChars_padded hbefore hafter (fun c hc => ?_) Nat.toDigits_ne_nil
        have hdigit : isNumeralChar c = true := by
          simp [isNumeralChar, Numeral.isDigit_of_mem_toDigits hc]
        exact (isWordChar_of_isNumeralChar hdigit).2.1
      rw [Limit.readNumber?, htrim, Numeral.readUInt64?_toDigits]

theorem ofJson_of_denotes {j : Json} {n : UInt64} (h : Denotes j n) : ofJson j = .ok (count n) := by
  rw [ofJson, h.readNumber?]

theorem ofJson_of_denotes_both {i j : Json} {o n : UInt64} (hi : Denotes i o)
    (hj : Denotes j n) : ofJson (.arr [i, j]) = .ok (range o n) := by
  have hrange : readRange? (.arr [i, j]) = some (range o n) := by
    rw [readRange?, hi.readNumber?, hj.readNumber?]
    rfl
  rw [ofJson, hrange]
  rfl

/-- A limit is refused where the dialect has no form for it, and for no other reason. -/
theorem toSql_eq_error_iff {limit : Limit} {d : Dialect} {ordered : Bool} {e : Error} :
    limit.toSql d ordered = .error e ↔
      d = .sybase ∧ e = .dialectMismatch d.name Feature.limit.name ∨
        d = .mssql ∧ ordered = false ∧
          e = .dialectMismatch d.name Feature.limitWithoutOrder.name := by
  cases d <;> cases limit <;> cases ordered <;> simp [toSql, Dialect.lacks, eq_comm]

/-- A limit is read as the numbers that its JSON form denotes. The dialects with a form for it all
take the same rows: they pass over the offset, or over none, and take the number of rows. Only
Sybase has no form, and SQL Server none without an order. -/
theorem dialects_take_same_window :
    (∀ j n, Denotes j n → ofJson j = .ok (count n)) ∧
      (∀ i j o n, Denotes i o → Denotes j n → ofJson (.arr [i, j]) = .ok (range o n)) ∧
      ∀ (s : Settings) (ordered : Bool) (limit : Limit),
        ((∃ e, limit.toSql s.dialect ordered = .error e) ↔
            s.dialect = .sybase ∨ s.dialect = .mssql ∧ ordered = false) ∧
          ∀ text, limit.toSql s.dialect ordered = .ok text →
            Window.ofText? s text = some limit.window := by
  refine ⟨fun j n => ofJson_of_denotes, fun i j o n => ofJson_of_denotes_both,
    fun s ordered limit => ⟨?_, fun text => Window.ofText?_toSql⟩⟩
  simp only [toSql_eq_error_iff]
  constructor
  · rintro ⟨e, ⟨hsybase, -⟩ | ⟨hmssql, hordered, -⟩⟩
    · exact .inl hsybase
    · exact .inr ⟨hmssql, hordered⟩
  · rintro (hsybase | ⟨hmssql, hordered⟩)
    · exact ⟨_, .inl ⟨hsybase, rfl⟩⟩
    · exact ⟨_, .inr ⟨hmssql, hordered, rfl⟩⟩

/-- The greatest number of rows behind an offset with blanks around it, in SQL Server. -/
theorem dialects_take_same_window_at_greatest :
    let s : Settings := ⟨.mssql, .bracket, ""⟩
    let offset : Json := .str ("\u00a0" ++ digits 7 ++ "\n")
    let greatest : Json := .num (.int 18446744073709551615 (by decide))
    let text := " OFFSET 7 ROWS FETCH NEXT 18446744073709551615 ROWS ONLY"
    Denotes offset 7 ∧ Denotes greatest 18446744073709551615 ∧
      ofJson (.arr [offset, greatest]) = .ok (range 7 18446744073709551615) ∧
      (range 7 18446744073709551615).toSql s.dialect true = .ok text ∧
      Window.ofText? s text = some ⟨7, 18446744073709551615⟩ := by
  intro s offset greatest text
  have hoffset : Denotes offset 7 :=
    .text 7 "\u00a0" "\n" (List.all_eq_true.1 (by decide)) (List.all_eq_true.1 (by decide))
  have hgreatest : Denotes greatest 18446744073709551615 :=
    .integer 18446744073709551615 (by decide)
  have htext : (range 7 18446744073709551615).toSql s.dialect true = .ok text := by
    decide +kernel
  obtain ⟨-, hread, hwindow⟩ := dialects_take_same_window
  exact ⟨hoffset, hgreatest, hread _ _ _ _ hoffset hgreatest, htext, (hwindow s true _).2 _ htext⟩

end Limit

end KeyedQuery
