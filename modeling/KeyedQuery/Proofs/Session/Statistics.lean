import KeyedQuery.Session.Monitor
import Mathlib.Algebra.GroupWithZero.Nat
import Mathlib.Data.List.DropRight
import Mathlib.Data.List.Induction

/-!
# What statistics say

Statistics depend on nothing but the events since the last reset. As long as these are fewer than
`2 ^ 64`, no word that counts goes round, and the statistics are a summary of the events in natural
numbers: how many statements have run, in all and of every kind, how many of them failed, how many
were slow, the sum of their durations up to the last word, the longest duration, and the first
statement that took that long.
-/

namespace KeyedQuery.Stats

/-! ## Words -/

theorem toNat_longest : longest.toNat = 2 ^ 64 - 1 := rfl

/-- A duration beyond the last word counts as that word. -/
theorem toNat_clip (nanoseconds : Nat) :
    (clip nanoseconds).toNat = min nanoseconds (2 ^ 64 - 1) := by
  unfold clip Numeral.uint64?
  split
  · next h =>
      rw [Option.getD_some, UInt64.toNat_ofNat_of_lt' h]
      omega
  · next h =>
      rw [Option.getD_none, toNat_longest]
      omega

/-- A sum that has reached the last word stays there. -/
theorem toNat_addClipped (m n : UInt64) :
    (addClipped m n).toNat = min (m.toNat + n.toNat) (2 ^ 64 - 1) := by
  unfold addClipped Numeral.uint64?
  by_cases h : m.toNat + n.toNat < 18446744073709551616
  · rw [if_pos h, if_neg (by simp), UInt64.toNat_add]
    omega
  · rw [if_neg h, if_pos Option.isNone_none, toNat_longest]
    omega

theorem toNat_add_ite {w : UInt64} (h : w.toNat + 1 < 2 ^ 64) (p : Prop) [Decidable p] :
    (w + if p then 1 else 0).toNat = w.toNat + if p then 1 else 0 := by
  rw [UInt64.toNat_add]
  split
  · exact Nat.mod_eq_of_lt h
  · exact Nat.mod_eq_of_lt (Nat.lt_of_succ_lt h)

theorem toNat_add_one {w : UInt64} (h : w.toNat + 1 < 2 ^ 64) : (w + 1).toNat = w.toNat + 1 :=
  toNat_add_ite h True

/-! ## What one statement changes -/

section

variable (s : Stats) (c : Context) (nanoseconds : Nat) (o : Outcome)

def ofKind (s : Stats) : StatementKind → UInt64
  | .select => s.select
  | .insert => s.insert
  | .update => s.update
  | .delete => s.delete
  | .other => s.other

theorem addDuration_eq (canonicalSql : String) : s.addDuration canonicalSql nanoseconds =
    { s with
      totalNanoseconds := addClipped s.totalNanoseconds (clip nanoseconds)
      maxNanoseconds := if s.maxNanoseconds < clip nanoseconds then clip nanoseconds
        else s.maxNanoseconds
      slowest := if s.maxNanoseconds < clip nanoseconds then some canonicalSql
        else s.slowest } := by
  unfold addDuration
  by_cases h : s.maxNanoseconds < clip nanoseconds
  · simp only [h, if_true]
  · simp only [h, if_false]

theorem total_complete : (s.step (.complete c nanoseconds o)).total = s.total + 1 := by
  rw [step, addDuration_eq]
  cases c.kind <;> rfl

theorem ofKind_complete (k : StatementKind) : (s.step (.complete c nanoseconds o)).ofKind k =
    s.ofKind k + if c.kind = k then 1 else 0 := by
  rw [step, addDuration_eq]
  cases c.kind <;> cases k <;> simp [countKind, ofKind]

theorem failed_complete : (s.step (.complete c nanoseconds o)).failed =
    s.failed + if o.isError then 1 else 0 := by
  rw [step, addDuration_eq]
  cases c.kind <;> rfl

theorem slow_complete : (s.step (.complete c nanoseconds o)).slow = s.slow := by
  rw [step, addDuration_eq]
  cases c.kind <;> rfl

theorem totalNanoseconds_complete : (s.step (.complete c nanoseconds o)).totalNanoseconds =
    addClipped s.totalNanoseconds (clip nanoseconds) := by
  rw [step, addDuration_eq]
  cases c.kind <;> rfl

theorem maxNanoseconds_complete : (s.step (.complete c nanoseconds o)).maxNanoseconds =
    if s.maxNanoseconds < clip nanoseconds then clip nanoseconds else s.maxNanoseconds := by
  rw [step, addDuration_eq]
  cases c.kind <;> rfl

theorem slowest_complete : (s.step (.complete c nanoseconds o)).slowest =
    if s.maxNanoseconds < clip nanoseconds then some c.canonicalSql else s.slowest := by
  rw [step, addDuration_eq]
  cases c.kind <;> rfl

end

/-! ## Summaries -/

/-- A statement that has run. -/
structure Completion where
  context : Context
  nanoseconds : Nat
  outcome : Outcome

def Completion.clipped (c : Completion) : Nat := min c.nanoseconds (2 ^ 64 - 1)

/-- The statement whose completion the event is. -/
def Event.completion? : Event → Option Completion
  | complete c nanoseconds o => some ⟨c, nanoseconds, o⟩
  | slow _ _ => none
  | reset => none

def Event.isSlow : Event → Bool
  | complete _ _ _ => false
  | slow _ _ => true
  | reset => false

def Event.isReset : Event → Bool
  | complete _ _ _ => false
  | slow _ _ => false
  | reset => true

def completions (events : List Event) : List Completion := events.filterMap Event.completion?

/-- The longest of the durations, which is zero if there is none. -/
def longestOf (cs : List Completion) : Nat := ((cs.map Completion.clipped).max?).getD 0

/-- The first statement that took longest, unless no time was measured at all. -/
def slowestOf? (cs : List Completion) : Option Completion :=
  if longestOf cs = 0 then none else cs.find? fun c => c.clipped = longestOf cs

theorem completions_append (events events' : List Event) :
    completions (events ++ events') = completions events ++ completions events' :=
  List.filterMap_append

theorem length_completions_le (events : List Event) :
    (completions events).length ≤ events.length :=
  List.length_filterMap_le _ _

theorem longestOf_concat (cs : List Completion) (c : Completion) :
    longestOf (cs ++ [c]) = max (longestOf cs) c.clipped := by
  have hfoldl (ns : List Nat) : (ns.max?).getD 0 = ns.foldl max 0 := by
    rw [List.foldl_max, Nat.zero_max]
  simp only [longestOf, hfoldl, List.map_append, List.foldl_append, List.map_cons, List.map_nil,
    List.foldl_cons, List.foldl_nil]

theorem clipped_le_longestOf {cs : List Completion} {c : Completion} (h : c ∈ cs) :
    c.clipped ≤ longestOf cs :=
  List.le_max?_getD_of_mem (List.mem_map_of_mem h)

/-- The longest duration is that of some statement, if any time was measured. -/
theorem exists_clipped_eq_longestOf {cs : List Completion} (h : longestOf cs ≠ 0) :
    ∃ c ∈ cs, c.clipped = longestOf cs := by
  cases hmax : (cs.map Completion.clipped).max? with
  | none => simp [longestOf, hmax] at h
  | some n =>
      have hlongest : longestOf cs = n := by rw [longestOf, hmax, Option.getD_some]
      rw [hlongest]
      exact List.mem_map.1 (List.max?_mem hmax)

/-- A statement is remembered exactly if it took longer than all before it. -/
theorem slowestOf?_concat (cs : List Completion) (c : Completion) :
    slowestOf? (cs ++ [c]) = if longestOf cs < c.clipped then some c else slowestOf? cs := by
  unfold slowestOf?
  rw [longestOf_concat, List.find?_append]
  by_cases h : longestOf cs < c.clipped
  · have hnone : cs.find? (fun d => d.clipped = c.clipped) = none := by
      rw [List.find?_eq_none]
      intro d hd
      have hle := clipped_le_longestOf hd
      simp only [decide_eq_true_eq]
      omega
    rw [if_pos h, Nat.max_eq_right h.le, if_neg (by omega), hnone]
    simp
  · rw [if_neg h, Nat.max_eq_left (Nat.le_of_not_lt h)]
    split
    · rfl
    · next hne =>
        obtain ⟨d, hd, hlongest⟩ := exists_clipped_eq_longestOf hne
        have hsome : (cs.find? fun d => d.clipped = longestOf cs).isSome := by
          rw [List.find?_isSome]
          exact ⟨d, hd, by simpa using hlongest⟩
        rw [Option.or_of_isSome hsome]

/-- Statistics are the summary of events, none of which is a reset. -/
structure Summarizes (events : List Event) (s : Stats) : Prop where
  total : s.total.toNat = (completions events).length
  ofKind (k : StatementKind) :
    (s.ofKind k).toNat = (completions events).countP fun c => c.context.kind = k
  failed : s.failed.toNat = (completions events).countP fun c => c.outcome.isError
  slow : s.slow.toNat = events.countP Event.isSlow
  totalNanoseconds : s.totalNanoseconds.toNat =
    min ((completions events).map Completion.clipped).sum (2 ^ 64 - 1)
  maxNanoseconds : s.maxNanoseconds.toNat = longestOf (completions events)
  slowest : s.slowest = (slowestOf? (completions events)).map fun c => c.context.canonicalSql

theorem summarizes_nil : Summarizes [] {} where
  total := rfl
  ofKind k := by cases k <;> rfl
  failed := rfl
  slow := rfl
  totalNanoseconds := rfl
  maxNanoseconds := rfl
  slowest := rfl

variable {events : List Event} {s : Stats}

/-- What one more statement changes is what it adds to the summary. -/
theorem Summarizes.complete (h : Summarizes events s) (hlength : events.length + 1 < 2 ^ 64)
    (c : Context) (nanoseconds : Nat) (o : Outcome) :
    Summarizes (events ++ [.complete c nanoseconds o]) (s.step (.complete c nanoseconds o)) := by
  have hbound := length_completions_le events
  have hcompletions : completions (events ++ [.complete c nanoseconds o]) =
      completions events ++ [⟨c, nanoseconds, o⟩] := completions_append _ _
  have hclip : (clip nanoseconds).toNat = Completion.clipped ⟨c, nanoseconds, o⟩ :=
    toNat_clip nanoseconds
  have hlonger : s.maxNanoseconds < clip nanoseconds ↔
      longestOf (completions events) < Completion.clipped ⟨c, nanoseconds, o⟩ := by
    rw [UInt64.lt_iff_toNat_lt, h.maxNanoseconds, hclip]
  -- A word that counts statements has not yet reached the last word.
  have hcount (p : Completion → Bool) : (completions events).countP p + 1 < 2 ^ 64 := by
    have hle := List.countP_le_length (p := p) (l := completions events)
    omega
  constructor
  case total =>
    rw [total_complete, hcompletions, List.length_append, ← h.total]
    exact toNat_add_one (by rw [h.total]; omega)
  case ofKind =>
    intro k
    rw [ofKind_complete, hcompletions, List.countP_append, List.countP_singleton, ← h.ofKind k,
      toNat_add_ite (by rw [h.ofKind k]; exact hcount _)]
    simp only [decide_eq_true_eq]
  case failed =>
    rw [failed_complete, hcompletions, List.countP_append, List.countP_singleton, ← h.failed,
      toNat_add_ite (by rw [h.failed]; exact hcount _)]
  case slow =>
    rw [slow_complete, List.countP_append, h.slow]
    rfl
  case totalNanoseconds =>
    rw [totalNanoseconds_complete, toNat_addClipped, h.totalNanoseconds, hclip, hcompletions,
      List.map_append, List.sum_append, List.map_singleton, List.sum_singleton]
    omega
  case maxNanoseconds =>
    rw [maxNanoseconds_complete, hcompletions, longestOf_concat]
    split
    · next hlt => rw [hclip, Nat.max_eq_right (hlonger.1 hlt).le]
    · next hle => rw [h.maxNanoseconds, Nat.max_eq_left (Nat.le_of_not_lt (mt hlonger.2 hle))]
  case slowest =>
    rw [slowest_complete, hcompletions, slowestOf?_concat, h.slowest]
    simp only [hlonger]
    split <;> rfl

theorem Summarizes.slower (h : Summarizes events s) (hlength : events.length + 1 < 2 ^ 64)
    (c : Context) (nanoseconds : Nat) :
    Summarizes (events ++ [.slow c nanoseconds]) (s.step (.slow c nanoseconds)) := by
  have hcompletions : completions (events ++ [.slow c nanoseconds]) = completions events :=
    (completions_append _ _).trans (List.append_nil _)
  have hle := List.countP_le_length (p := Event.isSlow) (l := events)
  constructor
  case slow =>
    rw [List.countP_append, ← h.slow]
    exact toNat_add_one (by rw [h.slow]; omega)
  all_goals rw [hcompletions]
  case total => exact h.total
  case ofKind => exact h.ofKind
  case failed => exact h.failed
  case totalNanoseconds => exact h.totalNanoseconds
  case maxNanoseconds => exact h.maxNanoseconds
  case slowest => exact h.slowest

theorem Summarizes.total_eq (h : Summarizes events s) : s.total.toNat =
    s.select.toNat + s.insert.toNat + s.update.toNat + s.delete.toNat + s.other.toNat := by
  have hkinds (cs : List Completion) : cs.length =
      (cs.countP fun c => c.context.kind = .select) +
        (cs.countP fun c => c.context.kind = .insert) +
        (cs.countP fun c => c.context.kind = .update) +
        (cs.countP fun c => c.context.kind = .delete) +
        cs.countP fun c => c.context.kind = .other := by
    induction cs with
    | nil => rfl
    | cons c cs ih =>
        simp only [List.countP_cons, List.length_cons, ih]
        cases c.context.kind <;> simp <;> omega
  rw [h.total, hkinds, ← h.ofKind, ← h.ofKind, ← h.ofKind, ← h.ofKind, ← h.ofKind]
  rfl

/-! ## Histories -/

/-- The events since the last reset. -/
def sinceReset (events : List Event) : List Event := events.rtakeWhile fun e => !e.isReset

theorem sinceReset_reset (events : List Event) : sinceReset (events ++ [.reset]) = [] :=
  List.rtakeWhile_concat_neg _ _ _ (by decide)

theorem sinceReset_concat (events : List Event) {e : Event} (h : e.isReset = false) :
    sinceReset (events ++ [e]) = sinceReset events ++ [e] :=
  List.rtakeWhile_concat_pos _ _ _ (by simp [h])

/-- What happened before the last reset does not matter. -/
theorem ofEvents_sinceReset (events : List Event) :
    ofEvents (sinceReset events) = ofEvents events := by
  induction events using List.reverseRecOn with
  | nil => rfl
  | append_singleton events e ih =>
      cases e with
      | reset =>
          rw [sinceReset_reset, ofEvents_concat]
          rfl
      | complete c nanoseconds o =>
          rw [sinceReset_concat events rfl, ofEvents_concat, ofEvents_concat, ih]
      | slow c nanoseconds =>
          rw [sinceReset_concat events rfl, ofEvents_concat, ofEvents_concat, ih]

/-- Statistics are the summary of the events since the last reset. -/
theorem summarizes_sinceReset {events : List Event} (h : (sinceReset events).length < 2 ^ 64) :
    Summarizes (sinceReset events) (ofEvents events) := by
  induction events using List.reverseRecOn with
  | nil => exact summarizes_nil
  | append_singleton events e ih =>
      rw [ofEvents_concat]
      cases e with
      | reset =>
          rw [sinceReset_reset]
          exact summarizes_nil
      | complete c nanoseconds o =>
          rw [sinceReset_concat events rfl, List.length_append, List.length_singleton] at h
          rw [sinceReset_concat events rfl]
          exact (ih (Nat.lt_of_succ_lt h)).complete h c nanoseconds o
      | slow c nanoseconds =>
          rw [sinceReset_concat events rfl, List.length_append, List.length_singleton] at h
          rw [sinceReset_concat events rfl]
          exact (ih (Nat.lt_of_succ_lt h)).slower h c nanoseconds

end KeyedQuery.Stats
