import KeyedQuery.Proofs.Binary64.Range
import KeyedQuery.Proofs.Numeral.Grammar
import KeyedQuery.Proofs.Session.Call

/-!
# Counts

A count is read off the scalar that the executor returns. An integer is taken as it is, whether it
comes as a word or as a numeral between blanks, so that no count of 64 bits is rounded. Other
numbers lose their fraction and are moved into the range, no scalar at all counts as zero, and what
is no finite number is an error.
-/

namespace KeyedQuery

open Recorded

/-! ## Texts that name numbers -/

namespace Text

/-- The text consists of the characters, with blanks before and after them or not. -/
def IsPadded (text : String) (cs : List Char) : Prop :=
  ∃ before after, text.toList = before ++ cs ++ after ∧ (∀ c ∈ before, isBlank c = true) ∧
    ∀ c ∈ after, isBlank c = true

def NamesInteger (text : String) (n : Int) : Prop :=
  ∃ cs, IsPadded text cs ∧ Numeral.IsInteger cs n

def NamesFinite (text : String) : Prop :=
  ∃ cs negative d, IsPadded text cs ∧ Numeral.IsDecimal cs negative d ∧
    d.value < 2 ^ 1024 - 2 ^ 970

theorem isPadded_trimChars (text : String) : IsPadded text (trimChars text.toList) := by
  obtain ⟨before, after, htext, hblanks⟩ := exists_padding text.toList
  exact ⟨before, after, htext, hblanks⟩

variable {text : String} {cs : List Char} {n : Int} {negative : Bool} {d : Numeral.Decimal}

theorem IsPadded.trimChars_eq (h : IsPadded text cs) (hcs : ∀ c ∈ cs, isBlank c = false)
    (hne : cs ≠ []) : trimChars text.toList = cs := by
  obtain ⟨before, after, htext, hbefore, hafter⟩ := h
  rw [htext, trimChars_padded hbefore hafter hcs hne]

theorem namesInteger_iff : NamesInteger text n ↔ Numeral.IsInteger (trimChars text.toList) n := by
  constructor
  · rintro ⟨cs, hpadded, hinteger⟩
    rwa [hpadded.trimChars_eq hinteger.isBlank hinteger.ne_nil]
  · exact fun h => ⟨_, isPadded_trimChars text, h⟩

theorem namesFinite_iff :
    NamesFinite text ↔ ∃ x, Binary64.read? (trimChars text.toList) = some (.finite x) := by
  constructor
  · rintro ⟨cs, negative, d, hpadded, hdecimal, hd⟩
    have hfinite := (Binary64.isFinite_ofDecimal_iff negative d).2 hd
    have hread := (Binary64.readWith?_eq_some_iff hfinite).2 ⟨negative, d, hdecimal, rfl⟩
    rw [hpadded.trimChars_eq hdecimal.isBlank hdecimal.ne_nil]
    cases hx : Binary64.ofDecimal negative d with
    | finite x => exact ⟨x, hread.trans (congrArg some hx)⟩
    | infinite _ => simp [hx] at hfinite
    | nan => simp [hx] at hfinite
  · rintro ⟨x, hread⟩
    obtain ⟨negative, d, hdecimal, hd⟩ := (Binary64.readWith?_eq_some_iff rfl).1 hread
    refine ⟨_, negative, d, isPadded_trimChars text, hdecimal, ?_⟩
    rw [← Binary64.isFinite_ofDecimal_iff negative d, hd]
    rfl

end Text

/-! ## Scalars -/

namespace Value

variable {text : String} {n : Int64}

/-- A numeral is read as the word that it writes, never through a binary64 number. -/
theorem asInt64?_of_namesInteger (h : Text.NamesInteger text n.toInt) :
    (Value.text text).asInt64? = some n := by
  have hread := Numeral.readInt64?_eq_some_iff.2 (Text.namesInteger_iff.1 h)
  simp only [asInt64?, hread]

theorem truncate?_eq_none_iff {x : Binary64} : truncate? x = none ↔ x.isFinite = false := by
  cases x <;> simp [truncate?]

theorem asInt64?_text_eq_none_iff : (Value.text text).asInt64? = none ↔
    (¬∃ n : Int64, Text.NamesInteger text n.toInt) ∧ ¬Text.NamesFinite text := by
  have hword : (∃ n : Int64, Text.NamesInteger text n.toInt) ↔
      ∃ n, Numeral.readInt64? (Text.trimChars text.toList) = some n :=
    exists_congr fun n => by rw [Numeral.readInt64?_eq_some_iff, Text.namesInteger_iff]
  rw [hword, Text.namesFinite_iff, asInt64?]
  cases Numeral.readInt64? (Text.trimChars text.toList) with
  | some n => simp
  | none =>
      cases Binary64.read? (Text.trimChars text.toList) with
      | none => simp
      | some x => cases x <;> simp [truncate?]

end Value

/-- What is counted for the rows that the executor returns. -/
structure RowSet.IsCountedAs (rows : RowSet) (r : Result Int64) : Prop where
  no_row (h : rows.rows = []) : r = .ok 0
  empty_row {rest : List (List Value)} (h : rows.rows = [] :: rest) : r = .ok 0
  null (h : rows.scalar? = some .null) : r = .ok 0
  int {n : Int64} (h : rows.scalar? = some (.int n)) : r = .ok n
  integer {text : String} {n : Int64} (h : rows.scalar? = some (.text text))
    (hn : Text.NamesInteger text n.toInt) : r = .ok n
  /-- The fraction is cut off, and the rest is moved to the nearest word. -/
  finite {x : Binary64.Finite} (h : rows.scalar? = some (.float (.finite x))) :
    ∃ n : Int64, r = .ok n ∧ n.toInt =
      max (-9223372036854775808) (min (Binary64.integerPart x.value) 9223372036854775807)
  list {items : List Value} (h : rows.scalar? = some (.list items)) :
    ∃ message, r = .error (.execution message)
  non_finite {x : Binary64} (h : rows.scalar? = some (.float x)) (hx : x.isFinite = false) :
    ∃ message, r = .error (.execution message)
  text {text : String} (h : rows.scalar? = some (.text text)) :
    (∃ message, r = .error (.execution message)) ↔
      (¬∃ n : Int64, Text.NamesInteger text n.toInt) ∧ ¬Text.NamesFinite text

namespace Session

variable {v : Value} {n : Int64}

/-- What is counted for a scalar. -/
def counted (v : Value) : Result Int64 := (decode .count Value.asInt64? v).map (·.getD 0)

theorem counted_of_some (h : v.asInt64? = some n) : counted v = .ok n := by
  cases v with
  | null => cases h
  | _ => simp only [counted, decode, h, Except.map, Option.getD_some]

theorem exists_counted_of_none (hnull : v.tag ≠ .null) (h : v.asInt64? = none) :
    ∃ message, counted v = .error (.execution message) := by
  cases v with
  | null => exact absurd rfl hnull
  | _ =>
      simp only [counted, decode, h, Except.map]
      exact ⟨_, rfl⟩

theorem counted_text_eq_error_iff {text : String} :
    (∃ message, counted (.text text) = .error (.execution message)) ↔
      (Value.text text).asInt64? = none := by
  constructor
  · rintro ⟨message, h⟩
    by_contra hsome
    obtain ⟨n, hn⟩ := Option.ne_none_iff_exists'.1 hsome
    rw [counted_of_some hn] at h
    cases h
  · exact exists_counted_of_none (by simp [Value.tag])

theorem isCountedAs_counted (rows : RowSet) :
    rows.IsCountedAs (counted (rows.scalar?.getD .null)) where
  no_row h := by
    rw [RowSet.scalar?, h]
    rfl
  empty_row h := by
    rw [RowSet.scalar?, h]
    rfl
  null h := by
    rw [h]
    rfl
  int h := by
    rw [h]
    rfl
  integer h hn := by
    rw [h]
    exact counted_of_some (Value.asInt64?_of_namesInteger hn)
  finite {x} h := by
    rw [h]
    refine ⟨Binary64.clampInt64 x.truncate, rfl, ?_⟩
    rw [Binary64.toInt_clampInt64, x.truncate_eq]
  list h := by
    rw [h]
    exact ⟨_, rfl⟩
  non_finite h hx := by
    rw [h]
    exact exists_counted_of_none (by simp [Value.tag]) (Value.truncate?_eq_none_iff.2 hx)
  text h := by
    rw [h, Option.getD_some, counted_text_eq_error_iff, Value.asInt64?_text_eq_none_iff]

variable {σ : Type} {s : Session (StateM σ)} {c : Context} {d : Demand} {w : σ}

theorem Asked.event_not_mem {r : Except String Context} {asked : List (Event Unit)}
    (h : s.Asked c w r asked) (tag : Option String) (sql : String) (answer : Result d.Answer) :
    d.event tag sql answer ∉ asked := by
  cases h with
  | unhooked _ => exact List.not_mem_nil
  | hooked _ _ => cases d <;> simp [Demand.event]

/-- The executor is called once at most, and what it returns is the answer of the statement. -/
theorem Ran.eq_of_event_mem {answer returned : Result d.Answer} {events : List (Event Unit)}
    {tag : Option String} {sql : String} (h : s.Ran d c w answer events)
    (hmem : d.event tag sql returned ∈ events) : returned = answer := by
  cases h with
  | refused ask => exact absurd hmem (ask.event_not_mem tag sql returned)
  | performed ask =>
      have hrest := (List.mem_append.1 hmem).resolve_left (ask.event_not_mem tag sql returned)
      cases d <;>
        simp [callEvents, startEvents, hookEvents, completionEvents, slowEvents, Demand.event]
          at hrest <;>
        exact hrest.2.2

/-- What is counted is read off the scalar that the executor returns. An integer in the range of a
word is neither rounded nor moved, in whichever form it comes. -/
theorem count_reads_scalar (s : Session (StateM σ)) (q : Query) (w : σ) :
    ∃ r events w', (s.recorded.count q).run w = (r, events, w') ∧
      (s.count q).run.run w = (r, w') ∧
      ∀ tag sql rows, .query tag sql (.ok rows) ∈ events → rows.IsCountedAs r := by
  change ∃ r events w', ((Call.count q).perform s.recorded).run w = (r, events, w') ∧ _
  cases hcontext : (Call.count q).context s with
  | error e =>
      obtain ⟨hrecorded, hrun⟩ := Call.run_of_context_error _ s hcontext w
      exact ⟨_, _, _, hrecorded, hrun, fun _ _ _ hmem => absurd hmem (List.not_mem_nil)⟩
  | ok c =>
      obtain ⟨answer, events, w', hran, hrecorded, hrun⟩ :=
        Call.exists_run_of_context_ok _ s hcontext w
      refine ⟨_, _, _, hrecorded, hrun, fun tag sql rows hmem => ?_⟩
      obtain rfl : .ok rows = answer := hran.eq_of_event_mem hmem
      exact isCountedAs_counted rows

/-- The session whose executor returns the least word as a numeral between blanks. -/
def leastCounting : Session (StateM Nat) where
  builder := ⟨{ dialect := .mysql }, rfl⟩
  executor := {
    query := fun _ _ =>
      pure (.ok { columns := ["n"], rows := [[.text "\u2003-09223372036854775808\n"]] })
    execute := fun _ _ => pure (.ok 0)
    quoteLiteral := fun _ => pure none
    lastInsertId := pure none }
  monitor := .silent
  clock := getModify (· + 1)
  trace := fun _ => pure ()

theorem count_reads_scalar_of_leastCounting :
    ((leastCounting.count { table := "t" }).run.run 0).1 = .ok Int64.minValue := by
  obtain ⟨r, events, w', hrecorded, hrun, hcounted⟩ :=
    count_reads_scalar leastCounting { table := "t" } 0
  have hevents : [.reading 0, .query none "SELECT COUNT(*) FROM \"t\"" (.ok
      { columns := ["n"], rows := [[.text "\u2003-09223372036854775808\n"]] }), .reading 1] =
        events :=
    congrArg (·.2.1) hrecorded
  have hinteger : Text.NamesInteger "\u2003-09223372036854775808\n" Int64.minValue.toInt :=
    Text.namesInteger_iff.2 (Numeral.signed?_eq_some_iff.1 (by decide +kernel))
  rw [hrun]
  exact (hcounted none _ _ (hevents ▸ List.mem_cons_of_mem _ List.mem_cons_self)).integer rfl
    hinteger

end Session

end KeyedQuery
