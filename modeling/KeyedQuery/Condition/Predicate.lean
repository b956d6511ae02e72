import KeyedQuery.Condition.Leaf
import KeyedQuery.Condition.Node

/-!
# Predicates

Conditions are compiled side by side and joined with a conjunctor. A group is compiled with its own
conjunctor and stands in parentheses. Siblings are compiled as groups one by one and joined with the
conjunctor around them. An empty group is refused, and so are a value under the key of a group and
conditions under the key of a column.

At the top of a predicate a group under a bare key takes the place of everything else: an `OR` group
if there is one, and otherwise an `AND` group. It needs no parentheses there.
-/

namespace KeyedQuery

def Conditions.nonempty (key : String) {α : Type} : List α → Result Unit
  | [] => fault (.emptyGroup key)
  | _ :: _ => .ok ()

mutual

/-- Compiles the node under a key, among conditions that are joined with `outer`. Only siblings
depend on `outer`: each of them is a group of its own, and they are joined like what stands beside
them. -/
def Node.toSql (s : Settings) (outer : Conjunctor) (key : String) : Node → Result Fragment
  | .value v =>
      match GroupKey.parse? key with
      | some _ => fault (.groupWithoutConditions key)
      | none => (LeafKey.parse key).bind fun k => k.toSql s v
  | .group entries =>
      match GroupKey.parse? key with
      | some g => do
          Conditions.nonempty key entries
          let parts ← Conditions.compileEach s g.conjunctor entries
          return (Fragment.join g.conjunctor.separator parts).parens
      | none => fault (.conditionsUnderColumn key)
  | .siblings groups =>
      match GroupKey.parse? key with
      | some g => do
          Conditions.nonempty key groups
          let parts ← Conditions.compileGroups s g.conjunctor key groups
          return (Fragment.join outer.separator (parts.map Fragment.parens)).parens
      | none => fault (.conditionsUnderColumn key)

def Conditions.compileEach (s : Settings) (outer : Conjunctor) :
    List (String × Node) → Result (List Fragment)
  | [] => .ok []
  | (key, node) :: rest => do
      let part ← node.toSql s outer key
      let parts ← Conditions.compileEach s outer rest
      return part :: parts

def Conditions.compileGroups (s : Settings) (inner : Conjunctor) (key : String) :
    List (List (String × Node)) → Result (List Fragment)
  | [] => .ok []
  | entries :: rest => do
      Conditions.nonempty key entries
      let parts ← Conditions.compileEach s inner entries
      let groups ← Conditions.compileGroups s inner key rest
      return Fragment.join inner.separator parts :: groups

end

namespace Conditions

def toSql (s : Settings) (c : Conjunctor) (m : Conditions) : Result Fragment :=
  (compileEach s c m).map (Fragment.join c.separator)

def bareGroup? (c : Conjunctor) (m : Conditions) : Option Node :=
  (m.find? fun (key, node) =>
    node.isGroup && (GroupKey.parse? key).any fun g => g.isBare && g.conjunctor == c).map Prod.snd

/-- Compiles a group that takes the place of a whole predicate. A predicate is a conjunction, so
siblings are joined with `AND`. -/
def topGroup (s : Settings) (c : Conjunctor) : Node → Result Fragment
  | .group (entry :: entries) => toSql s c (entry :: entries)
  | .siblings (group :: groups) => do
      let parts ← (group :: groups).mapM (toSql s c)
      return Fragment.join Conjunctor.and.separator (parts.map Fragment.parens)
  | _ => fault (.emptyTopLevelGroup c.keyword)

/-- The predicate of conditions at the top of a clause. The conditions beside the group that takes
its place are not even compiled, so that they are not refused either. -/
def predicate (s : Settings) (m : Conditions) : Result Fragment :=
  match m.bareGroup? .or with
  | some node => topGroup s .or node
  | none =>
      match m.bareGroup? .and with
      | some node => topGroup s .and node
      | none => m.toSql s .and

end Conditions

end KeyedQuery
