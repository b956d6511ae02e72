import KeyedQuery.Text.Blank
import KeyedQuery.Text.Letters

/-!
# Verbs of insertion

A row is inserted, or replaces the row with its key. MySQL knows modifiers of both. A verb is read
leniently from words: a word that is not understood is passed over, and a text of more than three
words is a plain `INSERT`.
-/

namespace KeyedQuery

inductive Schedule where
  | lowPriority
  | delayed
deriving DecidableEq, Repr

def Schedule.keyword : Schedule → String
  | lowPriority => "LOW_PRIORITY"
  | delayed => "DELAYED"

/-- The verb of an insertion. -/
structure Verb where
  replace : Bool := false
  schedule : Option Schedule := none
  ignore : Bool := false
deriving DecidableEq, Repr

namespace Verb

def insert : Verb := {}

def isExtended (v : Verb) : Bool := v != insert

def withWord (v : Verb) (word : String) : Verb :=
  if Text.sameLetters word "low_priority" then { v with schedule := some .lowPriority }
  else if Text.sameLetters word "delayed" then { v with schedule := some .delayed }
  else if Text.sameLetters word "ignore" then { v with ignore := true }
  else v

def ofWord (word : String) : Verb := { replace := Text.sameLetters word "replace" }

def ofWords : List String → Verb
  | [first] => ofWord first
  | [first, second] => (ofWord first).withWord second
  | [first, second, third] =>
      let v := (ofWord first).withWord second
      { v with ignore := v.ignore || Text.sameLetters third "ignore" }
  | _ => insert

def parse (text : String) : Verb := ofWords (Text.words text)

def text (v : Verb) : String :=
  let schedule :=
    match v.schedule with
    | some m => s!" {m.keyword}"
    | none => ""
  (if v.replace then "REPLACE" else "INSERT") ++ schedule ++ if v.ignore then " IGNORE" else ""

end Verb

end KeyedQuery
