import KeyedQuery.Condition.GroupKey
import KeyedQuery.Value.Basic

/-!
# Trees of conditions

Conditions are entries in order of arrival: under a key that names a column a value, under the key
of a group further conditions, or several lists of conditions that are siblings. In JSON a group is
an object and siblings are an array of objects.
-/

namespace KeyedQuery

/-- What a key of conditions holds. -/
inductive Node where
  /-- The value that a column is compared with. -/
  | value (v : Value)
  /-- A group of conditions. -/
  | group (entries : List (String × Node))
  /-- Groups side by side, each compiled on its own. -/
  | siblings (groups : List (List (String × Node)))

abbrev Conditions := Entries Node

namespace Node

def isGroup : Node → Bool
  | value _ => false
  | group _ => true
  | siblings _ => true

mutual

/-- Reads the node under a key. An array under the key of a group is read as siblings if it holds
nothing but objects. -/
def ofJson (key : String) : Json → Result Node
  | .obj fields => (ofFields fields).map group
  | .arr items =>
      if (GroupKey.parse? key).isSome && items.all Json.isObject then
        (ofItems items).map siblings
      else (Value.ofJson (.arr items)).map value
  | .null => .ok (value .null)
  | .bool b => .ok (value (.bool b))
  | .num n => .ok (value (Value.ofNumber n))
  | .str s => .ok (value (.text s))

def ofFields : List (String × Json) → Result (List (String × Node))
  | [] => .ok []
  | (key, j) :: rest => do
      let node ← ofJson key j
      let nodes ← ofFields rest
      return (key, node) :: nodes

def ofItems : List Json → Result (List (List (String × Node)))
  | [] => .ok []
  | .obj fields :: rest => do
      let entries ← ofFields fields
      let groups ← ofItems rest
      return entries :: groups
  | _ :: _ => fault .conditionsNotObject

end

end Node

namespace Conditions

def ofJson (j : Json) : Result Conditions :=
  match j with
  | .obj fields => Node.ofFields fields
  | _ => fault .conditionsNotObject

end Conditions

end KeyedQuery
