import KeyedQuery.Condition.Operator
import KeyedQuery.Text.Blank
import KeyedQuery.Text.Letters

/-!
# Keys of groups

A group of conditions stands under a key that names its conjunctor, in any case of letters. After
the conjunctor a comment may follow, blanks and a number sign before it, so that several groups of
one kind fit into one list of conditions.
-/

namespace KeyedQuery

structure GroupKey where
  conjunctor : Conjunctor
  comment : Option String
deriving DecidableEq, Repr

def Conjunctor.read? (word : List Char) : Option Conjunctor :=
  if Text.sameLetterChars word ['a', 'n', 'd'] then some and
  else if Text.sameLetterChars word ['o', 'r'] then some or
  else none

namespace GroupKey

def readComment? : List Char → Option (Option String)
  | [] => some none
  | c :: rest =>
      if Text.isBlank c then
        match Text.trimStartChars rest with
        | '#' :: comment => some (some (String.ofList comment))
        | _ => none
      else none

def parse? (key : String) : Option GroupKey := do
  let conjunctor ← Conjunctor.read? (key.toList.takeWhile Char.isAlpha)
  let comment ← readComment? (key.toList.dropWhile Char.isAlpha)
  return { conjunctor, comment }

/-- Whether the key is only a conjunctor, apart from an empty comment. -/
def isBare (g : GroupKey) : Bool :=
  match g.comment with
  | none => true
  | some comment => comment.isEmpty

end GroupKey

end KeyedQuery
