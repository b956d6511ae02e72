/-!
# Letters without case

Keywords are compared without regard to case. Two notions are in use. The comparison of ASCII
letters, `sameLetters`, knows the 26 letter pairs and nothing else. Simple case folding, `fold`,
also sends the long s and the Kelvin sign to the letters `s` and `k`, the only characters outside
ASCII that fold onto an ASCII letter.
-/

namespace KeyedQuery.Text

def lower (s : String) : String :=
  String.ofList (s.toList.map Char.toLower)

def sameLetterChars (cs ds : List Char) : Bool :=
  cs.map Char.toLower == ds.map Char.toLower

def sameLetters (s t : String) : Bool :=
  sameLetterChars s.toList t.toList

/-- Simple case folding, as far as it reaches ASCII letters: the capitals, the long s (U+017F) and
the Kelvin sign (U+212A) fold onto small letters, and every other character stays. -/
def fold (c : Char) : Char :=
  if c = '\u017f' then 's' else if c = '\u212a' then 'k' else c.toLower

@[simp] theorem sameLetterChars_self (cs : List Char) : sameLetterChars cs cs = true := by
  simp [sameLetterChars]

@[simp] theorem sameLetters_self (s : String) : sameLetters s s = true := by
  simp [sameLetters]

theorem sameLetterChars_eq_true_iff (cs ds : List Char) :
    sameLetterChars cs ds = true ↔ cs.map Char.toLower = ds.map Char.toLower := by
  simp [sameLetterChars]

end KeyedQuery.Text
