import KeyedQuery.Binary64.Rounding
import KeyedQuery.Entries

/-!
# JSON values

A JSON value as a document holds it. Objects keep the order of their keys. A number is an integer of
64 bits, signed or unsigned, or a finite binary64 number; the two kinds are told apart by the way
the number is written, so that `1` and `1.0` are different values.
-/

namespace KeyedQuery

inductive Json.Number where
  /-- An integer that fits 64 bits, with or without sign. -/
  | int (n : Int) (inRange : -9223372036854775808 ≤ n ∧ n < 18446744073709551616)
  /-- Any other number, as a finite binary64 number. -/
  | real (x : Binary64.Finite)
deriving DecidableEq

inductive Json where
  | null
  | bool (b : Bool)
  | num (n : Json.Number)
  | str (s : String)
  | arr (items : List Json)
  | obj (fields : List (String × Json))

namespace Json

/-- The JSON number of an integer: the nearest binary64 number if it does not fit 64 bits, and
nothing if even that overflows. -/
def Number.ofInt? (n : Int) : Option Number :=
  if h : -9223372036854775808 ≤ n ∧ n < 18446744073709551616 then some (.int n h)
  else
    match Binary64.ofInt n with
    | .finite x => some (.real x)
    | .infinite _ => none
    | .nan => none

def Number.toUInt64? : Number → Option UInt64
  | .int n _ => if 0 ≤ n then some (UInt64.ofNat n.toNat) else none
  | .real _ => none

/-- The JSON value of a natural number, `null` beyond all range. -/
def ofNat (n : Nat) : Json :=
  match Number.ofInt? n with
  | some k => .num k
  | none => .null

def asString? : Json → Option String
  | str s => some s
  | _ => none

def asArray? : Json → Option (List Json)
  | arr items => some items
  | _ => none

def asObject? : Json → Option (Entries Json)
  | obj fields => some fields
  | _ => none

def isObject : Json → Bool
  | obj _ => true
  | _ => false

def get? (j : Json) (key : String) : Option Json :=
  j.asObject?.bind fun fields => Entries.get? fields key

@[simp] theorem asString?_str (s : String) : (str s).asString? = some s := rfl

@[simp] theorem asArray?_arr (items : List Json) : (arr items).asArray? = some items := rfl

@[simp] theorem asObject?_obj (fields : Entries Json) : (obj fields).asObject? = some fields := rfl

end Json

end KeyedQuery
