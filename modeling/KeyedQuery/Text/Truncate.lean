/-!
# Cutting a text to a number of bytes

`takeBytes n` keeps the longest run of whole characters from the front whose UTF-8 form has at most
`n` bytes. `clip` marks a text that had to be cut with three dots.
-/

namespace KeyedQuery.Text

def byteLength : List Char → Nat
  | [] => 0
  | c :: r => c.utf8Size + byteLength r

@[simp] theorem byteLength_nil : byteLength [] = 0 := rfl

@[simp] theorem byteLength_cons (c : Char) (r : List Char) :
    byteLength (c :: r) = c.utf8Size + byteLength r := rfl

@[simp] theorem byteLength_append (cs ds : List Char) :
    byteLength (cs ++ ds) = byteLength cs + byteLength ds := by
  induction cs with
  | nil => simp
  | cons c cs ih => rw [List.cons_append, byteLength_cons, byteLength_cons, ih, Nat.add_assoc]

/-- The longest run of characters from the front that fits into `n` bytes. -/
def takeBytes : Nat → List Char → List Char
  | _, [] => []
  | n, c :: r => if c.utf8Size ≤ n then c :: takeBytes (n - c.utf8Size) r else []

@[simp] theorem takeBytes_nil (n : Nat) : takeBytes n [] = [] := rfl

theorem takeBytes_cons (n : Nat) (c : Char) (r : List Char) :
    takeBytes n (c :: r) =
      if c.utf8Size ≤ n then c :: takeBytes (n - c.utf8Size) r else [] := rfl

/-- The text itself if it has at most `n` bytes, and otherwise the longest run of whole characters
that fits into `n` bytes, followed by three dots. -/
def clip (n : Nat) (s : String) : String :=
  if byteLength s.toList ≤ n then s else String.ofList (takeBytes n s.toList) ++ "..."

end KeyedQuery.Text
