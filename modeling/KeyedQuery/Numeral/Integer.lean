/-!
# Integers of 64 bits and their numerals

Reading is exact or refused: a numeral is a non-empty run of ASCII digits, with a sign where the
type has one, and it is refused when the number does not fit. Writing is the decimal text of the
number.
-/

namespace KeyedQuery.Numeral

/-- The number written by a non-empty run of ASCII digits, leading zeros included. -/
def digits? (cs : List Char) : Option Nat :=
  if cs ≠ [] ∧ cs.all Char.isDigit then some (Nat.ofDigitChars 10 cs 0) else none

def signed? : List Char → Option Int
  | '-' :: cs => (digits? cs).map fun n => -(n : Int)
  | '+' :: cs => (digits? cs).map fun n => (n : Int)
  | cs => (digits? cs).map fun n => (n : Int)

def unsigned? : List Char → Option Nat
  | '+' :: cs => digits? cs
  | cs => digits? cs

def int64? (n : Int) : Option Int64 :=
  if -9223372036854775808 ≤ n ∧ n < 9223372036854775808 then some (Int64.ofInt n) else none

def uint64? (n : Nat) : Option UInt64 :=
  if n < 18446744073709551616 then some (UInt64.ofNat n) else none

def readInt64? (cs : List Char) : Option Int64 :=
  (signed? cs).bind int64?

def readUInt64? (cs : List Char) : Option UInt64 :=
  (unsigned? cs).bind uint64?

def ofNat (n : Nat) : String := toString n

def ofInt (n : Int) : String :=
  if n < 0 then "-" ++ ofNat n.natAbs else ofNat n.natAbs

theorem isDigit_of_mem_toDigits {n : Nat} {c : Char} (h : c ∈ Nat.toDigits 10 n) :
    c.isDigit = true :=
  Nat.isDigit_of_mem_toDigits (b := 10) (by decide) (by decide) h

theorem toList_ofInt (n : Int) :
    (ofInt n).toList = (if n < 0 then ['-'] else []) ++ Nat.toDigits 10 n.natAbs := by
  have hnat : ∀ m : Nat, (ofNat m).toList = Nat.toDigits 10 m := fun _ => Nat.toList_repr
  unfold ofInt
  split <;> simp [hnat]

theorem digits?_toDigits (n : Nat) : digits? (Nat.toDigits 10 n) = some n := by
  have hall : (Nat.toDigits 10 n).all Char.isDigit = true :=
    List.all_eq_true.2 fun _ => isDigit_of_mem_toDigits
  simp [digits?, hall, Nat.ofDigitChars_ten_toDigits]

theorem int64?_eq_some_iff (n : Int) (i : Int64) : int64? n = some i ↔ n = i.toInt := by
  unfold int64?
  have hlo := i.le_toInt
  have hhi := i.toInt_lt
  constructor
  · intro h
    split at h
    · obtain rfl := Option.some.inj h
      rw [Int64.toInt_ofInt_of_le] <;> omega
    · simp at h
  · rintro rfl
    rw [if_pos ⟨by omega, by omega⟩, Int64.ofInt_toInt]

theorem uint64?_eq_some_iff (n : Nat) (u : UInt64) : uint64? n = some u ↔ n = u.toNat := by
  unfold uint64?
  have hhi := u.toNat_lt
  constructor
  · intro h
    split at h
    · obtain rfl := Option.some.inj h
      rw [UInt64.toNat_ofNat_of_lt']
      assumption
    · simp at h
  · rintro rfl
    rw [if_pos (by omega), UInt64.ofNat_toNat]

end KeyedQuery.Numeral
