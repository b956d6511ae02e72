import KeyedQuery.Condition.Leaf
import KeyedQuery.Proofs.Binary64.Nearest
import KeyedQuery.Proofs.Binary64.Shortest
import KeyedQuery.Proofs.Canonical.Condition
import KeyedQuery.Write.Statement

/-!
# Integers of a document in statements

An integer that fits a signed word is written as it is. From `2 ^ 63` on, where a document may
still hold integers, it is read as the nearest binary64 number, and what is written is the shortest
decimal that rounds to this number. That decimal is a multiple of a thousand, so that few of these
integers are written as they are.
-/

namespace KeyedQuery

namespace Binary64.Finite

/-- The integer is the shortest decimal that rounds to a number: it is on a grid of decimals such
that none on the next coarser one rounds to the number, and it is nearest to the number of those
that do. -/
structure IsShortest (x : Finite) (m : Int) : Prop where
  rounds : ofInt m = .finite x
  shortest : ∃ g : Nat, (10 : Int) ^ g ∣ m ∧
    (∀ k, (10 : Int) ^ (g + 1) ∣ k → ofInt k ≠ .finite x) ∧
    ∀ k, (10 : Int) ^ g ∣ k → ofInt k = .finite x → k ≠ m →
      (m - x.truncate).natAbs < (k - x.truncate).natAbs

theorem IsShortest.unique {x : Finite} {m k : Int} (hm : x.IsShortest m) (hk : x.IsShortest k) :
    m = k := by
  obtain ⟨g, hg, hgnone, hgnear⟩ := hm.shortest
  obtain ⟨j, hj, hjnone, hjnear⟩ := hk.shortest
  have hle : ¬ g < j := fun hlt => hgnone k ((pow_dvd_pow 10 hlt).trans hj) hk.rounds
  have hge : ¬ j < g := fun hlt => hjnone m ((pow_dvd_pow 10 hlt).trans hg) hm.rounds
  obtain rfl : g = j := by omega
  by_contra hne
  have hfirst := hgnear k hj hk.rounds fun h => hne h.symm
  have hsecond := hjnear m hg hm.rounds hne
  omega

/-! ## Numbers from `2 ^ 63` to `2 ^ 64` -/

/-- What an integer of 64 bits is rounded to, if it does not fit a signed word: a number `magnitude`
whose last bit is worth `2 ^ 11`, or `2 ^ 64`. -/
structure IsGreat (x : Finite) (e magnitude : Nat) : Prop extends x.IsCoarse e where
  magnitude_eq : x.significand * 2 ^ e = magnitude
  sign : x.negative = false
  range : e = 11 ∨ e = 12 ∧ x.significand = 2 ^ 52

/-- An integer of 64 bits that fits no signed word is rounded to such a number. -/
theorem exists_isGreat {n : Int} (hlow : 9223372036854775808 ≤ n)
    (hhigh : n < 18446744073709551616) :
    ∃ x e magnitude, ofInt n = .finite x ∧ x.IsGreat e magnitude := by
  have hfinite := isFinite_ofInt (n := n) ⟨by omega, hhigh⟩
  cases hn : ofInt n with
  | infinite negative => rw [hn] at hfinite; cases hfinite
  | nan => rw [hn] at hfinite; cases hfinite
  | finite x =>
      obtain ⟨hsign, hnearest⟩ := ofInt_eq_finite_iff.1 hn
      rw [nearest_one (e := 11) (by omega) (by omega)] at hnearest
      have hpositive : x.negative = false := hsign.trans (decide_eq_false (by omega))
      split at hnearest
      · obtain ⟨hsignificand, hexponent⟩ := Prod.mk.inj hnearest
        exact ⟨x, 12, _, rfl, ⟨⟨hexponent.symm, by omega, by decide⟩, rfl, hpositive,
          .inr ⟨rfl, hsignificand.symm⟩⟩⟩
      · obtain ⟨hsignificand, hexponent⟩ := Prod.mk.inj hnearest
        have hlead : 2 ^ 52 ≤ x.significand := x.fits.2.2.2.resolve_right (by
          rw [← hexponent]
          decide)
        exact ⟨x, 11, _, rfl, ⟨⟨hexponent.symm, hlead, by decide⟩, rfl, hpositive, .inl rfl⟩⟩

namespace IsGreat

variable {x : Finite} {e X N : Nat} (h : x.IsGreat e X)
include h

theorem bounds : 2 ^ 63 ≤ X ∧ X ≤ 2 ^ 64 ∧ X % 2048 = 0 := by
  have hlead := h.leading
  have hlt := IsCoarse.significand_lt x
  have hX := h.magnitude_eq
  rcases h.range with rfl | ⟨rfl, hsignificand⟩
  · omega
  · rw [hsignificand] at hX
    omega

theorem truncate_eq : x.truncate = X := by
  rw [h.toIsCoarse.truncate_eq, h.sign, h.magnitude_eq]
  rfl

theorem ofInt_eq_iff {n : Int} :
    ofInt n = .finite x ↔ 0 ≤ n ∧ x.interval.contains ⟨n.natAbs, 0⟩ = true := by
  rw [h.toIsCoarse.ofInt_eq_iff, h.sign, eq_comm, decide_eq_false_iff_not, Int.not_lt]

theorem near_of_contains (hN : x.interval.contains ⟨N, 0⟩ = true) :
    X ≤ N + 1024 ∧ N ≤ X + 2048 ∧ (X < 2 ^ 64 → N ≤ X + 1024) := by
  obtain ⟨hlow, hhigh, -⟩ := (h.toIsCoarse.contains_iff N).1 hN
  have hbelow := IsCoarse.below_le x e
  rw [h.magnitude_eq] at hlow hhigh
  have hX := h.magnitude_eq
  rcases h.range with rfl | ⟨rfl, hsignificand⟩
  · omega
  · rw [IsCoarse.below, if_pos hsignificand] at hlow
    rw [hsignificand] at hX
    omega

theorem contains_of_near (hlow : X < N + 512) (hhigh : N < X + 1024) :
    x.interval.contains ⟨N, 0⟩ = true := by
  rw [h.toIsCoarse.contains_iff, h.magnitude_eq, IsCoarse.below]
  rcases h.range with rfl | ⟨rfl, hsignificand⟩
  · split <;> omega
  · rw [if_pos hsignificand]
    omega

theorem isProper : x.interval.IsProper := by
  have hpos : 0 < 2 ^ e := Nat.pow_pos (by decide)
  have hle : 2 ^ 52 * 2 ^ e ≤ x.significand * 2 ^ e := Nat.mul_le_mul_right _ h.leading
  have hbelow : 0 < IsCoarse.below x e := by
    unfold IsCoarse.below
    split <;> omega
  rw [h.toIsCoarse.interval_eq]
  exact ⟨Nat.succ_pos 3, by simp only; omega, by simp only; omega⟩

theorem distance_grid (q g : Nat) : x.interval.distance (g : Int) q =
    4 * ((q * 10 ^ g : Nat) - (X : Nat) : Int).natAbs := by
  have hneg : (-(g : Int)).toNat = 0 := by omega
  rw [h.toIsCoarse.interval_eq, h.magnitude_eq]
  simp only [Interval.distance, Interval.step, Interval.number, Int.toNat_natCast, hneg, Nat.pow_eq,
    Nat.pow_zero, Nat.mul_one, Nat.mul_left_comm q 4]
  omega

theorem decimalPoint_eq : x.interval.decimalPoint = if X < 10 ^ 19 then 19 else 20 := by
  obtain ⟨hlow, hhigh, -⟩ := h.bounds
  have hcount (k : Nat) (hk : 0 < k) : Interval.digitCount X ≤ k ↔ X < 10 ^ k :=
    Nat.length_toDigits_le_iff (by decide) hk
  have h18 := hcount 18 (by decide)
  have h19 := hcount 19 (by decide)
  have h20 := hcount 20 (by decide)
  rw [h.toIsCoarse.interval_eq, h.magnitude_eq, Interval.decimalPoint]
  simp only
  rw [if_pos (by omega), Nat.mul_div_cancel_left _ (by decide)]
  split <;> omega

theorem exists_thousands : ∃ q, x.interval.contains ⟨q, ((3 : Nat) : Int)⟩ = true := by
  refine ⟨(X + 1023) / 1000, ?_⟩
  rw [Interval.contains_natCast]
  exact h.contains_of_near (by omega) (by omega)

theorem not_contains_point {q p : Nat} (hp : (p : Int) = x.interval.decimalPoint) :
    x.interval.contains ⟨q, (p : Int)⟩ = false := by
  obtain ⟨hlow, hhigh, hmod⟩ := h.bounds
  rw [Bool.eq_false_iff, Interval.contains_natCast]
  intro hin
  obtain ⟨hbelow, habove, habove'⟩ := h.near_of_contains hin
  rw [h.decimalPoint_eq] at hp
  split at hp
  · obtain rfl : p = 19 := by omega
    omega
  · obtain rfl : p = 20 := by omega
    omega

/-- The search ends on a grid of thousands at the latest. On the next coarser grid nothing rounds
to the number, and on the grid itself nothing that does is nearer to the number than what is
found. -/
theorem exists_shortest : ∃ g : Nat, 3 ≤ g ∧ (x.shortest .up).exponent = g ∧
    x.interval.contains (x.shortest .up) = true ∧
    (∀ q, x.interval.contains ⟨q, ((g + 1 : Nat) : Int)⟩ = false) ∧
    ∀ q, x.interval.contains ⟨q, (g : Int)⟩ = true →
      x.interval.distance g (x.shortest .up).digits ≤ x.interval.distance g q := by
  obtain ⟨p, hp, hrange⟩ : ∃ p : Nat, (p : Int) = x.interval.decimalPoint ∧ 19 ≤ p ∧ p ≤ 20 := by
    rw [h.decimalPoint_eq]
    split
    · exact ⟨19, rfl, by decide, by decide⟩
    · exact ⟨20, rfl, by decide, by decide⟩
  have hgrid (n : Nat) (hn : n < p) :
      x.interval.decimalPoint - 1 - n = ((p - 1 - n : Nat) : Int) := by omega
  obtain ⟨q, hq⟩ := h.exists_thousands
  have hfine : ((3 : Nat) : Int) = x.interval.decimalPoint - 1 - (p - 4 : Nat) := by omega
  rw [hfine] at hq
  obtain ⟨n, hn, hexponent, hin, hcoarser, hnearest⟩ :=
    Finite.exists_shortest h.isProper .up (by omega) hq
  rw [hgrid n (by omega)] at hexponent hnearest
  refine ⟨p - 1 - n, by omega, hexponent, hin, fun q => ?_, hnearest⟩
  cases n with
  | zero =>
      -- The search ends where it starts, so that the next coarser grid is none of its own.
      have hnext : p - 1 - 0 + 1 = p := by omega
      rw [hnext]
      exact h.not_contains_point hp
  | succ n =>
      have hnext : p - 1 - (n + 1) + 1 = p - 1 - n := by omega
      rw [hnext, ← hgrid n (by omega)]
      exact hcoarser n (Nat.lt_succ_self n) q

/-- No two decimals that round to the number are nearest to it on one grid of thousands. Half way
between two that are equally near there would be one more, the number itself. -/
theorem lt_of_nearest {g M : Nat} (hg : 3 ≤ g) (hM : 10 ^ g ∣ M) (hN : 10 ^ g ∣ N) (hne : N ≠ M)
    (hMin : x.interval.contains ⟨M, 0⟩ = true) (hNin : x.interval.contains ⟨N, 0⟩ = true)
    (hnearest : ∀ K, 10 ^ g ∣ K → x.interval.contains ⟨K, 0⟩ = true →
      ((M : Int) - X).natAbs ≤ ((K : Int) - X).natAbs) :
    ((M : Int) - X).natAbs < ((N : Int) - X).natAbs := by
  obtain ⟨-, -, hmod⟩ := h.bounds
  obtain ⟨hMlow, hMhigh, -⟩ := h.near_of_contains hMin
  obtain ⟨hNlow, hNhigh, -⟩ := h.near_of_contains hNin
  refine lt_of_le_of_ne (hnearest N hN hNin) fun htie => ?_
  rcases Nat.lt_or_ge 3 g with hlt | hge
  · -- Multiples of ten thousand are too far from each other.
    obtain ⟨a, rfl⟩ := (pow_dvd_pow 10 hlt).trans hM
    obtain ⟨b, rfl⟩ := (pow_dvd_pow 10 hlt).trans hN
    omega
  · obtain rfl : g = 3 := by omega
    obtain ⟨a, rfl⟩ := hM
    obtain ⟨b, rfl⟩ := hN
    have hmiddle : 10 ^ 3 * ((a + b) / 2) = X := by omega
    have hself := hnearest X ⟨_, hmiddle.symm⟩ (h.contains_of_near (by omega) (by omega))
    omega

/-- What the search finds on a grid of thousands is the shortest decimal, if there is none on the
next coarser grid. -/
theorem isShortest_of_nearest {d g : Nat} (hg : 3 ≤ g)
    (hin : x.interval.contains ⟨d, (g : Int)⟩ = true)
    (hcoarser : ∀ q, x.interval.contains ⟨q, ((g + 1 : Nat) : Int)⟩ = false)
    (hnearest : ∀ q, x.interval.contains ⟨q, (g : Int)⟩ = true →
      x.interval.distance g d ≤ x.interval.distance g q) :
    x.IsShortest (d * 10 ^ g : Nat) := by
  have hnatAbs {j : Nat} {k : Int} (hk : (10 : Int) ^ j ∣ k) : 10 ^ j ∣ k.natAbs :=
    Int.natCast_dvd.1 (by rwa [Int.natCast_pow])
  have hgrid : (10 : Int) ^ g ∣ ((d * 10 ^ g : Nat) : Int) := by
    have hdvd := Int.natCast_dvd_natCast.2 (Nat.dvd_mul_left (10 ^ g) d)
    rwa [Int.natCast_pow] at hdvd
  rw [Interval.contains_natCast] at hin
  refine ⟨h.ofInt_eq_iff.2 ⟨Int.natCast_nonneg _, hin⟩, g, hgrid, fun k hk hround => ?_,
    fun k hk hround hne => ?_⟩
  · obtain ⟨-, hkin⟩ := h.ofInt_eq_iff.1 hround
    obtain ⟨q, hq⟩ := hnatAbs hk
    have hout := hcoarser q
    rw [Interval.contains_natCast, Nat.mul_comm, ← hq, hkin] at hout
    cases hout
  · obtain ⟨hpositive, hkin⟩ := h.ofInt_eq_iff.1 hround
    have hleast (K : Nat) (hK : 10 ^ g ∣ K) (hKin : x.interval.contains ⟨K, 0⟩ = true) :
        (((d * 10 ^ g : Nat) : Int) - X).natAbs ≤ ((K : Int) - X).natAbs := by
      obtain ⟨q, rfl⟩ := hK
      rw [Nat.mul_comm, ← Interval.contains_natCast] at hKin
      have hle := hnearest q hKin
      rw [h.distance_grid, h.distance_grid] at hle
      rw [Nat.mul_comm (10 ^ g) q]
      omega
    have hlt := h.lt_of_nearest hg (Nat.dvd_mul_left _ _) (hnatAbs hk) (by omega) hin hkin hleast
    rw [h.truncate_eq]
    omega

/-- What is written is the shortest decimal that rounds to the number, a multiple of a thousand. -/
theorem exists_isShortest : ∃ m : Int, 1000 ∣ m ∧ x.IsShortest m ∧
    Layout.sql.finiteText x = Numeral.ofInt m := by
  obtain ⟨g, hg, hexponent, hin, hcoarser, hnearest⟩ := h.exists_shortest
  have hdecimal : x.shortest .up = ⟨(x.shortest .up).digits, (g : Int)⟩ := by rw [← hexponent]
  rw [hdecimal] at hin
  have hdigits : 0 < (x.shortest .up).digits := by
    obtain ⟨hlow, -, -⟩ := h.bounds
    obtain ⟨hnear, -, -⟩ := h.near_of_contains ((Interval.contains_natCast _ _ _).symm.trans hin)
    by_contra hzero
    rw [Nat.eq_zero_of_not_pos hzero] at hnear
    omega
  have hsignificand : x.significand ≠ 0 := by
    have hlead := h.leading
    omega
  have htext := Layout.finiteText_sql hsignificand hdigits hexponent
  rw [h.sign] at htext
  have hthousand : (1000 : Nat) ∣ (x.shortest .up).digits * 10 ^ g :=
    (pow_dvd_pow 10 hg).trans (Nat.dvd_mul_left _ _)
  exact ⟨_, Int.natCast_dvd_natCast.2 hthousand, h.isShortest_of_nearest hg hin hcoarser hnearest,
    htext⟩

end IsGreat

end Binary64.Finite

/-! ## Integers in statements -/

namespace Value

structure IsWrittenAs (v : Value) (text : String) : Prop where
  /-- In the row of an insertion, under any key. -/
  inserted : ∀ key, Record.literal key v = .ok [.code text]
  assigned : ∀ (s : Settings) (k : AssignmentKey), k.operator = none →
    k.toSql s v = .ok (s.column k.column ++ [.code " = ", .code text])
  compared : ∀ (s : Settings) (k : LeafKey), k.operator = none →
    k.toSql s v = .ok (s.column k.column ++ [.code " = ", .code text])
  ordered : ∀ (s : Settings) (k : LeafKey) (c : Comparison), k.operator = some (.comparison c) →
    k.toSql s v = .ok (LeafKey.compared (s.column k.column) c (.code text))
  /-- As an item of a list, or as a bound of a range. -/
  listed : Literal.ofScalar v = .ok (.code text)

theorem isWrittenAs_of_numericSql? {v : Value} {text : String}
    (h : v.numericSql? = some (.ok text)) : v.IsWrittenAs text := by
  have hpiece (raw : Bool) : Literal.ofValue raw v = .ok (.code text) := by
    cases v with
    | int n =>
        obtain rfl : Numeral.ofInt n.toInt = text := Except.ok.inj (Option.some.inj h)
        rfl
    | float x =>
        have hfloat : floatSql x = .ok text := Option.some.inj h
        rw [Literal.ofValue, hfloat]
        rfl
    | _ => cases h
  have hinferred (column : Fragment) (k : LeafKey) : LeafKey.inferred column k false v =
      (Literal.ofValue k.raw v).map (LeafKey.equality column false) := by
    cases v with
    | int n => rfl
    | float x => rfl
    | _ => cases h
  have hcomparand (raw : Bool) : LeafKey.comparand? raw v = some (.ok (.code text)) := by
    cases v with
    | text s => cases h
    | _ => exact congrArg (Option.map (Except.map Piece.code)) h
  refine ⟨fun key => ?_, fun s k hk => ?_, fun s k hk => ?_, fun s k c hk => ?_, hpiece false⟩
  · rw [Record.literal, hpiece]
    rfl
  · rw [AssignmentKey.toSql, hk]
    simp only [hpiece]
    rfl
  · rw [LeafKey.toSql, hk]
    simp only [hinferred, hpiece]
    rfl
  · rw [LeafKey.toSql, hk]
    simp only [hcomparand]
    rfl

/-- An integer of a document is written as itself if it fits a signed word. A greater one is written
as the shortest decimal that rounds to the binary64 number nearest to it. That is a multiple of a
thousand, and it is the integer itself exactly if the integer is that decimal. -/
theorem integers_are_written (n : Int)
    (h : -9223372036854775808 ≤ n ∧ n < 18446744073709551616) :
    ∃ v m, ofJson (.num (.int n h)) = .ok v ∧ v.IsWrittenAs (Numeral.ofInt m) ∧
      (n < 9223372036854775808 → m = n) ∧
      (9223372036854775808 ≤ n →
        1000 ∣ m ∧ ∃ x, Binary64.ofInt n = .finite x ∧ x.IsShortest m) ∧
      (m = n ↔ n < 9223372036854775808 ∨ ∃ x, Binary64.ofInt n = .finite x ∧ x.IsShortest n) := by
  rcases lt_or_ge n 9223372036854775808 with hlt | hge
  · have hword : Numeral.int64? n = some (Int64.ofInt n) := by
      rw [Numeral.int64?, if_pos ⟨h.1, hlt⟩]
    have hn := (Numeral.int64?_eq_some_iff n _).1 hword
    refine ⟨.int (Int64.ofInt n), n, ?_, isWrittenAs_of_numericSql? ?_, fun _ => rfl,
      fun hge => absurd hlt (by omega), iff_of_true rfl (.inl hlt)⟩
    · rw [ofJson, ofNumber, hword]
    · rw [numericSql?, ← hn]
  · obtain ⟨x, e, X, hx, hgreat⟩ := Binary64.Finite.exists_isGreat hge h.2
    obtain ⟨m, hthousand, hshortest, htext⟩ := hgreat.exists_isShortest
    have hword : Numeral.int64? n = none := by
      rw [Numeral.int64?, if_neg (by omega)]
    refine ⟨.float (.finite x), m, ?_, isWrittenAs_of_numericSql? ?_,
      fun hlt => absurd hlt (by omega), fun _ => ⟨hthousand, x, hx, hshortest⟩, fun heq => ?_, ?_⟩
    · rw [ofJson, ofNumber, hword]
      simp only [hx]
    · rw [numericSql?, (floatSql_eq_ok_iff _ _).2 ⟨rfl, htext.symm⟩]
    · exact .inr ⟨x, hx, heq ▸ hshortest⟩
    · rintro (hlt | ⟨y, hy, hexact⟩)
      · exact absurd hlt (by omega)
      · obtain rfl := Binary64.finite.inj (hx.symm.trans hy)
        exact hshortest.unique hexact

/-- The greatest integer of a document is written as another one. -/
theorem integers_are_written_at_greatest :
    ∃ v m, ofJson (.num (.int 18446744073709551615 (by decide))) = .ok v ∧
      v.IsWrittenAs (Numeral.ofInt m) ∧ 1000 ∣ m ∧ m ≠ 18446744073709551615 := by
  obtain ⟨v, m, hv, hwritten, -, hgreat, -⟩ :=
    integers_are_written 18446744073709551615 (by decide)
  obtain ⟨hthousand, -⟩ := hgreat (by decide)
  exact ⟨v, m, hv, hwritten, hthousand, fun heq => absurd (heq ▸ hthousand) (by decide)⟩

/-- The identifier after `2 ^ 63` selects the row of another one. -/
theorem integer_is_rounded :
    ∃ v, ofJson (.num (.int 9223372036854775809 (by decide))) = .ok v ∧
      Record.literal "id" v = .ok [.code "9223372036854776000"] ∧
      Numeral.ofInt 9223372036854775809 ≠ "9223372036854776000" :=
  ⟨.float (Binary64.ofInt 9223372036854775809), rfl, by decide +kernel, by decide +kernel⟩

end Value

end KeyedQuery
