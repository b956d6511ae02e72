import KeyedQuery.Calendar
import KeyedQuery.Value.Basic

/-!
# Conversion to values

The types whose members can be used as values. Machine integers that fit a signed word of 64 bits
become integers, dates, moments and identifiers become their texts, an absent value becomes `null`.
-/

namespace KeyedQuery

/-- Types whose members can be used as values. -/
class ToValue (α : Type) where
  /-- The value of a member. -/
  toValue : α → Value

structure Uuid where
  bits : BitVec 128
deriving DecidableEq

/-- The 32 hexadecimal digits of an identifier, in groups of 8, 4, 4, 4 and 12. -/
def Uuid.text (u : Uuid) : String :=
  let digits := Nat.toDigits 16 u.bits.toNat
  let ds := List.replicate (32 - digits.length) '0' ++ digits
  let group (start count : Nat) := String.ofList ((ds.drop start).take count)
  "-".intercalate [group 0 8, group 8 4, group 12 4, group 16 4, group 20 12]

export ToValue (toValue)

instance : ToValue Value where
  toValue v := v

instance : ToValue Bool where
  toValue := .bool

instance : ToValue Int8 where
  toValue n := .int n.toInt64

instance : ToValue Int16 where
  toValue n := .int n.toInt64

instance : ToValue Int32 where
  toValue n := .int n.toInt64

instance : ToValue Int64 where
  toValue := .int

instance : ToValue UInt8 where
  toValue n := .int (Int64.ofNat n.toNat)

instance : ToValue UInt16 where
  toValue n := .int (Int64.ofNat n.toNat)

instance : ToValue UInt32 where
  toValue n := .int (Int64.ofNat n.toNat)

instance : ToValue Binary64 where
  toValue := .float

instance : ToValue String where
  toValue := .text

instance {α : Type} [ToValue α] : ToValue (Option α) where
  toValue
    | some a => toValue a
    | none => .null

instance {α : Type} [ToValue α] : ToValue (List α) where
  toValue items := .list (items.map toValue)

instance : ToValue Date where
  toValue d := .text d.text

instance : ToValue Moment where
  toValue m := .text m.text

instance : ToValue Uuid where
  toValue u := .text u.text

end KeyedQuery
