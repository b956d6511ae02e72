/-!
# Patterns of search terms

A term of a search becomes a pattern. A final underscore asks for texts that start with the term, a
final percent sign for texts that end with it, and a bare term for texts that contain it. The empty
term and a term that already looks like a pattern stay as they are.
-/

namespace KeyedQuery.Pattern

/-- Whether a term is taken for a pattern: it starts with a percent sign, a bracket, or an
underscore and a bracket, or it ends in a bracket. -/
def isPattern (cs : List Char) : Bool :=
  ['%'].isPrefixOf cs || ['['].isPrefixOf cs || ['_', ']'].isPrefixOf cs || [']'].isSuffixOf cs

def ofTermChars (cs : List Char) : List Char :=
  match ['_'].isSuffixOf? cs with
  | some stem => stem ++ ['%']
  | none =>
      match ['%'].isSuffixOf? cs with
      | some stem => '%' :: stem
      | none => if cs = [] ∨ isPattern cs then cs else '%' :: cs ++ ['%']

def ofTerm (term : String) : String := String.ofList (ofTermChars term.toList)

end KeyedQuery.Pattern
