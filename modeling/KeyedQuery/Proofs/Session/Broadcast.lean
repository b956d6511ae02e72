import KeyedQuery.Proofs.Session.Chain
import KeyedQuery.Proofs.Session.Statistics

/-!
# Monitors in groups

Monitors are told what happens one after the other, in whichever way they are grouped. So statistics
in a group say what they would say if they were told directly, beside whatever other monitors: they
are the summary of the events since their own last reset.
-/

namespace KeyedQuery

inductive Notice where
  | start (c : Context)
  | complete (c : Context) (nanoseconds : Nat) (o : Outcome)
  | slow (c : Context) (nanoseconds : Nat)

def Notice.event? : Notice → Option Stats.Event
  | start _ => none
  | complete c nanoseconds o => some (.complete c nanoseconds o)
  | slow c nanoseconds => some (.slow c nanoseconds)

namespace Monitor

variable {m : Type → Type}

def tell (x : Monitor m) : Notice → m Unit
  | .start c => x.start c
  | .complete c nanoseconds o => x.complete c nanoseconds o
  | .slow c nanoseconds => x.slow c nanoseconds

variable [Monad m]

theorem tell_all (monitors : List (Monitor m)) (e : Notice) :
    (all monitors).tell e = monitors.forM fun x => x.tell e := by
  cases e <;> rfl

theorem tell_monitor (record : Stats.Event → m Unit) (e : Notice) :
    (Stats.monitor record).tell e = e.event?.elim (pure ()) record := by
  cases e <;> rfl

end Monitor

/-! ## Groups -/

namespace Grouping

variable {ι : Type}

section

variable {m : Type → Type} [Monad m] (W : ι → Monitor m)

mutual

def toMonitor : Grouping ι → Monitor m
  | single i => W i
  | chain parts => Monitor.all (toMonitors parts)

def toMonitors : List (Grouping ι) → List (Monitor m)
  | [] => []
  | T :: rest => toMonitor T :: toMonitors rest

end

end

variable {m : Type → Type} [Monad m] [LawfulMonad m] (W : ι → Monitor m) (e : Notice)

mutual

/-- However monitors are grouped, they are told one after the other. -/
theorem tell_toMonitor : (T : Grouping ι) →
    (T.toMonitor W).tell e = T.leaves.forM fun i => (W i).tell e
  | single i => by
      rw [toMonitor, leaves]
      exact (bind_pure _).symm
  | chain parts => by
      rw [toMonitor, Monitor.tell_all, leaves, forM_tell_toMonitors parts]

theorem forM_tell_toMonitors : (parts : List (Grouping ι)) →
    ((toMonitors W parts).forM fun x => x.tell e) =
      (leavesOf parts).forM fun i => (W i).tell e
  | [] => rfl
  | T :: rest => by
      change ((T.toMonitor W).tell e >>= fun _ =>
        (toMonitors W rest).forM fun x => x.tell e) = _
      rw [tell_toMonitor T, forM_tell_toMonitors rest, leavesOf]
      exact List.forM_append.symm

end

end Grouping

/-! ## Statistics in a group -/

/-- The statistics under labels, and the world of the other monitors. One label may have several
places in a group: its statistics are then told everything as many times. -/
structure Watch (κ ω : Type) where
  stats : κ → Stats
  others : ω

/-- What happens to the monitors of a group: all of them are told something, or some statistics are
reset. -/
inductive Happening (κ : Type) where
  | told (e : Notice)
  | reset (k : κ)

variable {κ ν ω : Type} [DecidableEq κ]

/-- How many places the statistics under a label have among monitors. -/
def placesOf (k : κ) (members : List (κ ⊕ ν)) : Nat := (members.filterMap Sum.getLeft?).count k

/-- The events of the statistics under a label that are told everything `n` times. -/
def Happening.events (n : Nat) (k : κ) : Happening κ → List Stats.Event
  | told e => (List.replicate n e.event?.toList).flatten
  | reset k' => if k' = k then [.reset] else []

namespace Watch

def record (w : Watch κ ω) (k : κ) (e : Stats.Event) : Watch κ ω :=
  { w with stats := Function.update w.stats k ((w.stats k).step e) }

/-- The monitors under labels: those that keep statistics, and others, which do as they like in
their own world. -/
def member (other : ν → Monitor (StateM ω)) : κ ⊕ ν → Monitor (StateM (Watch κ ω))
  | .inl k => Stats.monitor fun e => modify fun w => w.record k e
  | .inr i =>
      { start := fun c => beside ((other i).start c)
        complete := fun c nanoseconds o => beside ((other i).complete c nanoseconds o)
        slow := fun c nanoseconds => beside ((other i).slow c nanoseconds) }
where
  /-- Something that happens in the world of the other monitors. -/
  beside (x : StateM ω Unit) : StateM (Watch κ ω) Unit :=
    modify fun w => { w with others := (x.run w.others).2 }

/-- What one happening makes of the monitors of a group. -/
def step (T : Grouping (κ ⊕ ν)) (other : ν → Monitor (StateM ω)) (w : Watch κ ω) :
    Happening κ → Watch κ ω
  | .told e => (((T.toMonitor (member other)).tell e).run w).2
  | .reset k => w.record k .reset

/-- The events that the statistics under a label are told in a group, and their resets. -/
def told (T : Grouping (κ ⊕ ν)) (k : κ) (happenings : List (Happening κ)) : List Stats.Event :=
  happenings.flatMap (Happening.events (placesOf k T.leaves) k)

/-- What happenings make of the monitors of a group, of which those that keep statistics are new. -/
def ofHappenings (T : Grouping (κ ⊕ ν)) (other : ν → Monitor (StateM ω)) (others : ω)
    (happenings : List (Happening κ)) : Watch κ ω :=
  happenings.foldl (step T other) { stats := fun _ => {}, others }

variable (T : Grouping (κ ⊕ ν)) (other : ν → Monitor (StateM ω)) (w : Watch κ ω) (k : κ)

theorem stats_record (k' : κ) (e : Stats.Event) :
    (w.record k' e).stats k = if k' = k then (w.stats k).step e else w.stats k := by
  change Function.update w.stats k' _ k = _
  split
  · next h => rw [h, Function.update_self]
  · next h => rw [Function.update_of_ne (Ne.symm h)]

/-- A member records what it is told in its own statistics and in no others. -/
theorem stats_member (i : κ ⊕ ν) (e : Notice) :
    ((((member other i).tell e).run w).2).stats k =
      (Happening.events (placesOf k [i]) k (.told e)).foldl Stats.step (w.stats k) := by
  cases i with
  | inl k' =>
      have hplaces : placesOf k [(.inl k' : κ ⊕ ν)] = if k' = k then 1 else 0 := by
        simp [placesOf, List.count_singleton]
      rw [member, Monitor.tell_monitor, hplaces]
      cases he : e.event? with
      | none =>
          have hevents (n : Nat) : Happening.events n k (.told e) = [] := by
            simp [Happening.events, he]
          rw [hevents]
          rfl
      | some e' =>
          refine (w.stats_record k k' e').trans ?_
          split <;> simp [Happening.events, he]
  | inr i => cases e <;> rfl

theorem stats_forM_tell (members : List (κ ⊕ ν)) (e : Notice) :
    (((members.forM fun i => (member other i).tell e).run w).2).stats k =
      (Happening.events (placesOf k members) k (.told e)).foldl Stats.step (w.stats k) := by
  induction members generalizing w with
  | nil => rfl
  | cons i members ih =>
      have hplaces : placesOf k (i :: members) = placesOf k [i] + placesOf k members := by
        rw [placesOf, ← List.singleton_append, List.filterMap_append, List.count_append]
        rfl
      have hevents : Happening.events (placesOf k (i :: members)) k (.told e) =
          Happening.events (placesOf k [i]) k (.told e) ++
            Happening.events (placesOf k members) k (.told e) := by
        simp only [Happening.events, hplaces, List.replicate_add, List.flatten_append]
      rw [hevents, List.foldl_append, ← stats_member, ← ih]
      rfl

theorem stats_step (a : Happening κ) : (step T other w a).stats k =
    (a.events (placesOf k T.leaves) k).foldl Stats.step (w.stats k) := by
  cases a with
  | told e =>
      rw [step, Grouping.tell_toMonitor]
      exact w.stats_forM_tell other k T.leaves e
  | reset k' =>
      rw [step, stats_record, Happening.events]
      split <;> rfl

theorem stats_ofHappenings (others : ω) (happenings : List (Happening κ)) :
    (ofHappenings T other others happenings).stats k = .ofEvents (told T k happenings) := by
  induction happenings using List.reverseRecOn with
  | nil => rfl
  | append_singleton happenings a ih =>
      have htold : told T k (happenings ++ [a]) =
          told T k happenings ++ a.events (placesOf k T.leaves) k := by
        rw [told, List.flatMap_append, List.flatMap_singleton, told]
      rw [ofHappenings, List.foldl_append, ← ofHappenings, List.foldl_cons, List.foldl_nil,
        stats_step, ih, htold]
      exact List.foldl_append.symm

/-- Statistics in a group, however it is nested, are those of the events that they are told, which
for a single place in the group are the events themselves. They depend on nothing but the events
since their last reset, and summarize these. -/
theorem stats_summarize_told (others : ω) (happenings : List (Happening κ))
    (h : (told T k happenings).length < 2 ^ 64) :
    let s := (ofHappenings T other others happenings).stats k
    let recent := Stats.sinceReset (told T k happenings)
    s = .ofEvents (told T k happenings) ∧
      (placesOf k T.leaves = 1 →
        s = (ofHappenings (.single (.inl k)) other others happenings).stats k) ∧
      s = .ofEvents recent ∧ Stats.Summarizes recent s ∧
      s.total.toNat = s.select.toNat + s.insert.toNat + s.update.toNat + s.delete.toNat +
        s.other.toNat := by
  intro s recent
  have hs : s = .ofEvents (told T k happenings) := stats_ofHappenings T other k others happenings
  have hrecent : recent.length < 2 ^ 64 :=
    Nat.lt_of_le_of_lt (List.rtakeWhile_suffix _ _).length_le h
  have hsummary : Stats.Summarizes recent s := hs ▸ Stats.summarizes_sinceReset hrecent
  refine ⟨hs, fun hplace => ?_, ?_, hsummary, hsummary.total_eq⟩
  · have hsingle : placesOf k (Grouping.single (.inl k : κ ⊕ ν)).leaves = 1 := by
      simp [Grouping.leaves, placesOf]
    rw [stats_ofHappenings, hs, told, told, hplace, hsingle]
  · rw [hs, Stats.ofEvents_sinceReset]

/-- A group in a group, whose first statistics are reset between two statements, and whose sum of
durations stops at the last word. -/
theorem stats_summarize_told_nested :
    let T : Grouping (Bool ⊕ Unit) :=
      .chain [.chain [.single (.inl true), .single (.inr ())], .chain [], .single (.inl false)]
    let select := Context.ofSql "SELECT 1"
    let insert := Context.ofSql "INSERT INTO t"
    let happenings : List (Happening Bool) :=
      [.told (.complete select 7 (.rows 1)), .reset true, .told (.start insert),
        .told (.complete select 3 (.error "no")), .told (.complete insert (2 ^ 64) (.affected 1)),
        .told (.slow insert (2 ^ 64))]
    let s := (ofHappenings T (fun _ => Monitor.silent) () happenings).stats true
    (told T true happenings).length < 2 ^ 64 ∧
      s = { total := 2, failed := 1, slow := 1, select := 1, insert := 1
            totalNanoseconds := 18446744073709551615, maxNanoseconds := 18446744073709551615
            slowest := some "INSERT INTO t" } ∧
      Stats.Summarizes (Stats.sinceReset (told T true happenings)) s := by
  intro T select insert happenings s
  have hlength : (told T true happenings).length < 2 ^ 64 := by decide +kernel
  exact ⟨hlength, by decide +kernel,
    (stats_summarize_told T (fun _ => Monitor.silent) true () happenings hlength).2.2.2.1⟩

end Watch

end KeyedQuery
