/-!
# Blank characters

White space is the Unicode property White_Space: 25 characters, and none of the zero-width or
separator controls that other definitions add. Trimming and splitting into words read texts as lists
of characters, so that every function here is a plain recursion on the list; the forms on `String`
are read through `String.toList`.
-/

namespace KeyedQuery.Text

/-- The code points with the property White_Space, as closed ranges in ascending order. -/
def blankRanges : List (Nat × Nat) :=
  [(0x09, 0x0D), (0x20, 0x20), (0x85, 0x85), (0xA0, 0xA0), (0x1680, 0x1680), (0x2000, 0x200A),
    (0x2028, 0x2029), (0x202F, 0x202F), (0x205F, 0x205F), (0x3000, 0x3000)]

def inRanges (ranges : List (Nat × Nat)) (n : Nat) : Bool :=
  ranges.any fun r => r.1 ≤ n && n ≤ r.2

def isBlank (c : Char) : Bool :=
  inRanges blankRanges c.toNat

def trimStartChars (cs : List Char) : List Char :=
  cs.dropWhile isBlank

def trimEndChars (cs : List Char) : List Char :=
  (cs.reverse.dropWhile isBlank).reverse

def trimChars (cs : List Char) : List Char :=
  trimEndChars (trimStartChars cs)

def trim (s : String) : String :=
  String.ofList (trimChars s.toList)

@[simp] theorem toList_trim (s : String) : (trim s).toList = trimChars s.toList := by
  simp [trim]

@[simp] theorem trimStartChars_nil : trimStartChars [] = [] := rfl

@[simp] theorem trimChars_nil : trimChars [] = [] := rfl

theorem isBlank_head_trimStartChars (cs : List Char) (c : Char)
    (h : (trimStartChars cs).head? = some c) : isBlank c = false := by
  have hnot := List.head?_dropWhile_not isBlank cs
  rw [show cs.dropWhile isBlank = trimStartChars cs from rfl, h] at hnot
  simpa using hnot

/-- The pieces between the characters that satisfy `p`: always one more than there are such
characters, so an empty list has one empty piece. -/
def splitOnP (p : Char → Bool) : List Char → List (List Char)
  | [] => [[]]
  | c :: r =>
      if p c then [] :: splitOnP p r
      else
        match splitOnP p r with
        | [] => [[c]]
        | piece :: pieces => (c :: piece) :: pieces

@[simp] theorem splitOnP_nil (p : Char → Bool) : splitOnP p [] = [[]] := rfl

theorem splitOnP_ne_nil (p : Char → Bool) (cs : List Char) : splitOnP p cs ≠ [] := by
  cases cs with
  | nil => simp
  | cons c r =>
      simp only [splitOnP]
      split
      · simp
      · split <;> simp

def words (s : String) : List String :=
  ((splitOnP isBlank s.toList).filter (· ≠ [])).map String.ofList

end KeyedQuery.Text
