import KeyedQuery.Binary64.Layout
import Mathlib.Data.List.DropRight
import Mathlib.Data.Nat.Digits.Defs

/-!
# The search for the shortest decimal

On one grid the search finds a decimal exactly if the interval holds one of that grid, and it finds
one that is nearest to the number. It goes from coarse grids to finer ones and stops at the first on
which there is a decimal. What is found is laid out positionally: the text of a decimal that is an
integer is the numeral of that integer, since the zeros that are taken from its digits are put back.
-/

namespace KeyedQuery.Binary64

namespace Interval

variable {i : Interval} {g : Int} {q r : Nat} {tie : Tie}

/-- The number of the interval lies inside of it. -/
structure IsProper (i : Interval) : Prop where
  den : 0 < i.den
  low : i.low < i.mid
  high : i.mid < i.high

def step (i : Interval) (g : Int) : Nat := i.den * Nat.pow 10 g.toNat

def number (i : Interval) (g : Int) : Nat := i.mid * Nat.pow 10 (-g).toNat

theorem step_pos (h : i.IsProper) (g : Int) : 0 < i.step g :=
  Nat.mul_pos h.den (Nat.pow_pos (by decide))

theorem contains_eq : i.contains ⟨q, g⟩ =
    if i.closed then decide (i.low * Nat.pow 10 (-g).toNat ≤ q * i.step g) &&
      decide (q * i.step g ≤ i.high * Nat.pow 10 (-g).toNat)
    else decide (i.low * Nat.pow 10 (-g).toNat < q * i.step g) &&
      decide (q * i.step g < i.high * Nat.pow 10 (-g).toNat) := by
  have hstep : q * Nat.pow 10 g.toNat * i.den = q * i.step g := by
    rw [step, Nat.mul_comm i.den, Nat.mul_assoc]
  simp only [contains, hstep]

theorem contains_natCast (i : Interval) (q g : Nat) :
    i.contains ⟨q, (g : Int)⟩ = i.contains ⟨q * 10 ^ g, 0⟩ := by
  have hneg : (-(g : Int)).toNat = 0 := by omega
  simp only [contains, Int.toNat_natCast, hneg, Int.toNat_zero, Int.neg_zero, Nat.pow_eq,
    Nat.pow_zero, Nat.mul_one]

/-- What lies between a decimal in the interval and the number of the interval is inside as well. -/
theorem contains_of_between (h : i.IsProper) (hq : i.contains ⟨q, g⟩ = true)
    (hr : q ≤ r ∧ r * i.step g ≤ i.number g ∨ r ≤ q ∧ i.number g ≤ r * i.step g) :
    i.contains ⟨r, g⟩ = true := by
  have hpos : 0 < Nat.pow 10 (-g).toNat := Nat.pow_pos (by decide)
  have hlow : i.low * Nat.pow 10 (-g).toNat < i.number g := Nat.mul_lt_mul_of_pos_right h.low hpos
  have hhigh : i.number g < i.high * Nat.pow 10 (-g).toNat :=
    Nat.mul_lt_mul_of_pos_right h.high hpos
  have hbetween : q * i.step g ≤ r * i.step g ∧ r * i.step g ≤ i.number g ∨
      r * i.step g ≤ q * i.step g ∧ i.number g ≤ r * i.step g :=
    hr.imp (fun hr => ⟨Nat.mul_le_mul_right _ hr.1, hr.2⟩)
      fun hr => ⟨Nat.mul_le_mul_right _ hr.1, hr.2⟩
  rw [contains_eq] at hq ⊢
  cases hclosed : i.closed with
  | true =>
      simp only [hclosed, if_true, Bool.and_eq_true, decide_eq_true_eq] at hq ⊢
      omega
  | false =>
      simp only [hclosed, Bool.false_eq_true, if_false, Bool.and_eq_true, decide_eq_true_eq] at hq ⊢
      omega

def distance (i : Interval) (g : Int) (q : Nat) : Nat :=
  ((q * i.step g : Nat) - (i.number g : Nat) : Int).natAbs

/-- Of the decimals in the interval, the two neighbours of the number are the nearest. -/
theorem neighbours (h : i.IsProper) (hq : i.contains ⟨q, g⟩ = true) :
    (i.contains ⟨i.number g / i.step g, g⟩ = true ∧
        i.distance g (i.number g / i.step g) ≤ i.distance g q) ∨
      (i.contains ⟨i.number g / i.step g + 1, g⟩ = true ∧
        i.distance g (i.number g / i.step g + 1) ≤ i.distance g q) := by
  have hpos := step_pos h g
  have hdiv : i.number g / i.step g * i.step g ≤ i.number g := Nat.div_mul_le_self _ _
  have hlt : i.number g < (i.number g / i.step g + 1) * i.step g :=
    (Nat.div_lt_iff_lt_mul hpos).1 (Nat.lt_succ_self _)
  rcases Nat.lt_or_ge (i.number g / i.step g) q with hgt | hle
  · refine .inr ⟨contains_of_between h hq (.inr ⟨hgt, Nat.le_of_lt hlt⟩), ?_⟩
    have hmul : (i.number g / i.step g + 1) * i.step g ≤ q * i.step g :=
      Nat.mul_le_mul_right _ hgt
    unfold distance
    omega
  · refine .inl ⟨contains_of_between h hq (.inl ⟨hle, hdiv⟩), ?_⟩
    have hmul : q * i.step g ≤ i.number g / i.step g * i.step g := Nat.mul_le_mul_right _ hle
    unfold distance
    omega

/-- What is as near as both neighbours is nearest. -/
theorem distance_le_of_neighbours (h : i.IsProper)
    (hbelow : i.distance g r ≤ i.distance g (i.number g / i.step g))
    (habove : i.distance g r ≤ i.distance g (i.number g / i.step g + 1))
    (hq : i.contains ⟨q, g⟩ = true) : i.distance g r ≤ i.distance g q := by
  rcases neighbours h hq with hq | hq
  · exact hbelow.trans hq.2
  · exact habove.trans hq.2

theorem distance_below (i : Interval) (g : Int) :
    i.distance g (i.number g / i.step g) = i.number g % i.step g := by
  have hmod := Nat.div_add_mod' (i.number g) (i.step g)
  unfold distance
  omega

theorem distance_above (h : i.IsProper) :
    i.distance g (i.number g / i.step g + 1) = i.step g - i.number g % i.step g := by
  have hmod := Nat.div_add_mod' (i.number g) (i.step g)
  have hnext : (i.number g / i.step g + 1) * i.step g =
      i.number g / i.step g * i.step g + i.step g := Nat.succ_mul _ _
  have hlt : i.number g % i.step g < i.step g := Nat.mod_lt _ (step_pos h g)
  unfold distance
  omega

/-- What the search finds on a grid is in the interval, and nothing on the grid is nearer. -/
theorem nearestOnGrid?_eq_some (h : i.IsProper) {d : Numeral.Decimal}
    (hd : i.nearestOnGrid? tie g = some d) :
    d.exponent = g ∧ i.contains d = true ∧
      ∀ q, i.contains ⟨q, g⟩ = true → i.distance g d.digits ≤ i.distance g q := by
  have hnumber : i.mid * Nat.pow 10 (-g).toNat = i.number g := rfl
  have hstep : i.den * Nat.pow 10 g.toNat = i.step g := rfl
  have hbelow := distance_below i g
  have habove := distance_above (g := g) h
  simp only [nearestOnGrid?, hnumber, hstep] at hd
  split at hd
  · cases hd
  · next hin hout =>
      obtain rfl := Option.some.inj hd
      exact ⟨rfl, hin, fun q hq => ((neighbours h hq).resolve_right (by simp [hout])).2⟩
  · next hout hin =>
      obtain rfl := Option.some.inj hd
      exact ⟨rfl, hin, fun q hq => ((neighbours h hq).resolve_left (by simp [hout])).2⟩
  · next hin hin' =>
      -- Both neighbours are inside. The nearer one is taken, and either of them in a tie.
      have hfirst (hle : 2 * (i.number g % i.step g) ≤ i.step g) (q : Nat)
          (hq : i.contains ⟨q, g⟩ = true) :
          i.distance g (i.number g / i.step g) ≤ i.distance g q :=
        distance_le_of_neighbours h le_rfl (by omega) hq
      have hsecond (hle : i.step g ≤ 2 * (i.number g % i.step g)) (q : Nat)
          (hq : i.contains ⟨q, g⟩ = true) :
          i.distance g (i.number g / i.step g + 1) ≤ i.distance g q :=
        distance_le_of_neighbours h (by omega) le_rfl hq
      split at hd
      · obtain rfl := Option.some.inj hd
        exact ⟨rfl, hin, hfirst (by omega)⟩
      · split at hd
        · obtain rfl := Option.some.inj hd
          exact ⟨rfl, hin', hsecond (by omega)⟩
        · cases tie with
          | up =>
              obtain rfl := Option.some.inj hd
              exact ⟨rfl, hin', hsecond (by omega)⟩
          | even =>
              obtain rfl := Option.some.inj hd
              split
              · exact ⟨rfl, hin, hfirst (by omega)⟩
              · exact ⟨rfl, hin', hsecond (by omega)⟩

theorem isSome_nearestOnGrid?_iff (h : i.IsProper) (tie : Tie) :
    (i.nearestOnGrid? tie g).isSome = true ↔ ∃ q, i.contains ⟨q, g⟩ = true := by
  constructor
  · intro hsome
    obtain ⟨d, hd⟩ := Option.isSome_iff_exists.1 hsome
    obtain ⟨rfl, hin, -⟩ := nearestOnGrid?_eq_some h hd
    exact ⟨d.digits, hin⟩
  · rintro ⟨q, hq⟩
    have hnumber : i.mid * Nat.pow 10 (-g).toNat = i.number g := rfl
    have hstep : i.den * Nat.pow 10 g.toNat = i.step g := rfl
    simp only [nearestOnGrid?, hnumber, hstep]
    split
    · next hbelow habove => simpa [hbelow, habove] using neighbours h hq
    · rfl
    · rfl
    · split
      · rfl
      · split
        · rfl
        · cases tie <;> rfl

end Interval

/-! ## From coarse grids to finer ones -/

/-- The search through the numbers below a bound stops at the first one that has a result. -/
theorem exists_findSome?_range {α : Type} {f : Nat → Option α} {bound n : Nat} (hn : n < bound)
    (h : (f n).isSome = true) : ∃ k ≤ n, (∀ j < k, f j = none) ∧
      ∃ a, f k = some a ∧ (List.range bound).findSome? f = some a := by
  have hsome : ((List.range bound).findSome? f).isSome = true :=
    List.findSome?_isSome_iff.2 ⟨n, List.mem_range.2 hn, h⟩
  obtain ⟨a, ha⟩ := Option.isSome_iff_exists.1 hsome
  obtain ⟨before, k, rest, hrange, hk, hnone⟩ := List.findSome?_eq_some_iff.1 ha
  rw [List.range_eq_range', List.range'_eq_append_iff] at hrange
  obtain ⟨j, -, rfl, hrest⟩ := hrange
  obtain ⟨rfl, -⟩ := List.range'_eq_cons_iff.1 hrest.symm
  have hbefore (i : Nat) (hi : i < 0 + j * 1) : f i = none :=
    hnone i (List.mem_range'_1.2 ⟨Nat.zero_le _, by omega⟩)
  refine ⟨0 + j * 1, ?_, hbefore, a, hk, ha⟩
  by_contra hlt
  rw [hbefore n (by omega)] at h
  cases h

/-- The search stops at the coarsest grid that has a decimal in the interval, if it gets to one,
with a decimal that is nearest to the number on that grid. -/
theorem Finite.exists_shortest {x : Finite} (h : x.interval.IsProper) (tie : Tie) {n q : Nat}
    (hn : n < 17) (hq : x.interval.contains ⟨q, x.interval.decimalPoint - 1 - n⟩ = true) :
    ∃ k : Nat, k ≤ n ∧ (x.shortest tie).exponent = x.interval.decimalPoint - 1 - k ∧
      x.interval.contains (x.shortest tie) = true ∧
      (∀ j < k, ∀ q, x.interval.contains ⟨q, x.interval.decimalPoint - 1 - (j : Nat)⟩ = false) ∧
      ∀ q, x.interval.contains ⟨q, x.interval.decimalPoint - 1 - k⟩ = true →
        x.interval.distance (x.interval.decimalPoint - 1 - k) (x.shortest tie).digits ≤
          x.interval.distance (x.interval.decimalPoint - 1 - k) q := by
  obtain ⟨k, hk, hcoarser, d, hd, hfound⟩ := exists_findSome?_range
    (f := fun n : Nat => x.interval.nearestOnGrid? tie (x.interval.decimalPoint - 1 - n)) hn
    ((Interval.isSome_nearestOnGrid?_iff h tie).2 ⟨q, hq⟩)
  have hshortest : x.shortest tie = d := by
    simp only [shortest, hfound, Option.getD_some]
  obtain ⟨hexponent, hin, hnearest⟩ := Interval.nearestOnGrid?_eq_some h hd
  rw [hshortest]
  refine ⟨k, hk, hexponent, hin, fun j hj q => Bool.eq_false_iff.2 fun hq => ?_, hnearest⟩
  have hsome := (Interval.isSome_nearestOnGrid?_iff h tie).2 ⟨q, hq⟩
  rw [hcoarser j hj] at hsome
  cases hsome

/-! ## The text of an integer -/

theorem toDigits_mul_pow {q : Nat} (hq : 0 < q) (g : Nat) :
    Nat.toDigits 10 (q * 10 ^ g) = Nat.toDigits 10 q ++ List.replicate g '0' := by
  induction g with
  | zero => simp
  | succ g ih =>
      have hpos : 0 < q * 10 ^ g := Nat.mul_pos hq (Nat.pow_pos (by decide))
      have hsplit : q * 10 ^ (g + 1) = q * 10 ^ g * 10 := by rw [Nat.pow_succ, Nat.mul_assoc]
      rw [hsplit, Nat.toDigits_of_base_le (by decide) (by omega), Nat.mul_div_cancel _ (by decide),
        Nat.mul_mod_left, ih, List.replicate_succ', List.append_assoc]
      rfl

namespace Layout

theorem rdropWhile_append_replicate (digits : List Char) (g : Nat) :
    digits.rdropWhile (· == '0') ++
        List.replicate (digits.length + g - (digits.rdropWhile (· == '0')).length) '0' =
      digits ++ List.replicate g '0' := by
  have happend := List.rdropWhile_append_rtakeWhile (p := (· == '0')) (l := digits)
  have hlength := congrArg List.length happend
  rw [List.length_append] at hlength
  have hzeros : digits.rtakeWhile (· == '0') =
      List.replicate (digits.rtakeWhile (· == '0')).length '0' :=
    List.eq_replicate_iff.2 ⟨rfl, fun c hc => by simpa using List.mem_rtakeWhile_imp hc⟩
  have hcount : digits.length + g - (digits.rdropWhile (· == '0')).length =
      (digits.rtakeWhile (· == '0')).length + g := by omega
  rw [hcount, List.replicate_add, ← hzeros, ← List.append_assoc, happend]

theorem positionalText_significantDigits {d : Numeral.Decimal} {g : Nat} (hd : 0 < d.digits)
    (hg : d.exponent = g) :
    positionalText false (significantDigits d).1 (significantDigits d).2 =
      Nat.toDigits 10 (d.digits * 10 ^ g) := by
  have hpoint : (significantDigits d).2 =
      (((Nat.toDigits 10 d.digits).length + g : Nat) : Int) := by
    simp [significantDigits, hg]
  have hdigits : (significantDigits d).1 = (Nat.toDigits 10 d.digits).rdropWhile (· == '0') := rfl
  have hpos : 0 < (Nat.toDigits 10 d.digits).length := Nat.length_toDigits_pos
  have hle := (List.rdropWhile_prefix (· == '0') (l := Nat.toDigits 10 d.digits)).length_le
  rw [hpoint, hdigits, positionalText, if_neg (by omega), if_neg (by omega), Int.toNat_natCast,
    toDigits_mul_pow hd, rdropWhile_append_replicate]
  simp

/-- Where the shortest decimal is an integer, the text of a number is the numeral of the integer. -/
theorem finiteText_sql {x : Finite} {g : Nat} (hx : x.significand ≠ 0)
    (hd : 0 < (x.shortest .up).digits) (hg : (x.shortest .up).exponent = g) :
    sql.finiteText x =
      Numeral.ofInt (if x.negative then -((x.shortest .up).digits * 10 ^ g : Nat)
        else ((x.shortest .up).digits * 10 ^ g : Nat)) := by
  have hpos : 0 < (x.shortest .up).digits * 10 ^ g := Nat.mul_pos hd (Nat.pow_pos (by decide))
  have htext := positionalText_significantDigits hd hg
  rw [← String.toList_inj, Numeral.toList_ofInt]
  simp only [finiteText, sql, if_neg hx, if_true, String.toList_ofList, htext]
  cases x.negative with
  | true =>
      simp only [if_true]
      rw [if_pos (by omega), Int.natAbs_neg, Int.natAbs_natCast]
  | false =>
      simp only [Bool.false_eq_true, if_false]
      rw [if_neg (by omega), Int.natAbs_natCast]

end Layout

end KeyedQuery.Binary64
