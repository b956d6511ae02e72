import KeyedQuery.Session.Statement

/-!
# Texts cut to a number of bytes

Whole characters are taken from the front of a text while they fit. What is taken is the longest run
that fits. It is found from the other end as well: one walks back over the bytes from the limit to a
boundary between characters and slices the text there, which never fails. A character has at most
four bytes, so at most three bytes of the limit are left over. The message of a failure is cut in
this way.
-/

namespace KeyedQuery

namespace Text

/-- The text `p` is a run of whole characters from the front of `s` that fits into `n` bytes, and no
longer run does. A text has no part of a character, so that the boundaries between the characters of
`s` are where it is one text followed by another. -/
structure IsLongestWithin (n : Nat) (s p : String) : Prop where
  begins : ∃ r, s = p ++ r
  fits : p.utf8ByteSize ≤ n
  longest : ∀ q r, s = q ++ r → p.utf8ByteSize < q.utf8ByteSize → n < q.utf8ByteSize

variable {n i : Nat} {s p r : String} {cs ds : List Char}

/-! ## Lengths in bytes -/

theorem utf8ByteSize_ofList (cs : List Char) : (String.ofList cs).utf8ByteSize = byteLength cs := by
  induction cs with
  | nil => rfl
  | cons c cs ih =>
      rw [String.ofList_cons, String.utf8ByteSize_append, String.utf8ByteSize_singleton, ih,
        byteLength_cons]

theorem byteLength_toList (s : String) : byteLength s.toList = s.utf8ByteSize := by
  rw [← utf8ByteSize_ofList, String.ofList_toList]

/-! ## Characters from the front -/

theorem takeBytes_append (h : byteLength cs ≤ n) :
    takeBytes n (cs ++ ds) = cs ++ takeBytes (n - byteLength cs) ds := by
  induction cs generalizing n with
  | nil => simp
  | cons c cs ih =>
      rw [byteLength_cons] at h
      have hc : c.utf8Size ≤ n := by omega
      have hcs : byteLength cs ≤ n - c.utf8Size := by omega
      rw [List.cons_append, takeBytes_cons, if_pos hc, ih hcs, byteLength_cons, Nat.sub_sub,
        List.cons_append]

theorem takeBytes_eq_self (h : byteLength cs ≤ n) : takeBytes n cs = cs := by
  have happend : takeBytes n (cs ++ []) = cs ++ takeBytes (n - byteLength cs) [] :=
    takeBytes_append h
  rwa [takeBytes_nil, List.append_nil] at happend

theorem byteLength_takeBytes_le (n : Nat) (cs : List Char) : byteLength (takeBytes n cs) ≤ n := by
  induction cs generalizing n with
  | nil => simp
  | cons c cs ih =>
      rw [takeBytes_cons]
      split
      · have := ih (n - c.utf8Size)
        rw [byteLength_cons]
        omega
      · simp

theorem exists_eq_takeBytes_append (n : Nat) (cs : List Char) :
    ∃ rest, cs = takeBytes n cs ++ rest := by
  induction cs generalizing n with
  | nil => exact ⟨[], by simp⟩
  | cons c cs ih =>
      rw [takeBytes_cons]
      split
      · obtain ⟨rest, hrest⟩ := ih (n - c.utf8Size)
        exact ⟨rest, by rw [List.cons_append, ← hrest]⟩
      · exact ⟨c :: cs, by rw [List.nil_append]⟩

/-- What is taken from the front is the longest run that fits. -/
theorem isLongestWithin_takeBytes (n : Nat) (s : String) :
    IsLongestWithin n s (String.ofList (takeBytes n s.toList)) where
  begins := by
    obtain ⟨rest, hrest⟩ := exists_eq_takeBytes_append n s.toList
    refine ⟨String.ofList rest, ?_⟩
    rw [← String.ofList_append, ← hrest, String.ofList_toList]
  fits := by
    rw [utf8ByteSize_ofList]
    exact byteLength_takeBytes_le n s.toList
  longest q r hs hlonger := by
    refine Nat.not_le.1 fun hq => ?_
    rw [← byteLength_toList] at hq
    rw [hs, String.toList_append, takeBytes_append hq, String.ofList_append, String.ofList_toList,
      String.utf8ByteSize_append] at hlonger
    omega

/-! ## Bytes from the limit -/

/-- The last boundary between characters of `s` at or before byte `n`. From there one walks back as
long as the byte read is not the first of a character. -/
def lastBoundary (s : String) : Nat → Nat
  | 0 => 0
  | n + 1 => if String.Pos.Raw.isValid s ⟨n + 1⟩ then n + 1 else lastBoundary s n

theorem lastBoundary_succ (s : String) (n : Nat) :
    lastBoundary s (n + 1) =
      if String.Pos.Raw.isValid s ⟨n + 1⟩ then n + 1 else lastBoundary s n := rfl

/-- The text before byte `i`, unless this byte is inside of a character or behind the end. -/
def sliceTo? (s : String) (i : Nat) : Option String :=
  if h : String.Pos.Raw.IsValid s ⟨i⟩ then some (s.sliceTo (s.pos ⟨i⟩ h)).copy else none

/-- The text itself if it fits into `n` bytes, and otherwise what is before the last boundary. -/
def cutBack? (n : Nat) (s : String) : Option String :=
  if s.utf8ByteSize ≤ n then some s else sliceTo? s (lastBoundary s n)

theorem isValid_of_eq_append (h : s = p ++ r) : String.Pos.Raw.IsValid s ⟨p.utf8ByteSize⟩ :=
  String.Pos.Raw.isValid_iff_exists_append.2 ⟨p, r, h, rfl⟩

theorem exists_eq_append_of_isValid (h : String.Pos.Raw.IsValid s ⟨i⟩) :
    ∃ p r, s = p ++ r ∧ p.utf8ByteSize = i := by
  obtain ⟨p, r, hs, hi⟩ := String.Pos.Raw.isValid_iff_exists_append.1 h
  exact ⟨p, r, hs, (congrArg String.Pos.Raw.byteIdx hi).symm⟩

/-- Where the walk ends is a boundary, so that the text can be sliced there. -/
theorem isValid_lastBoundary (s : String) (n : Nat) :
    String.Pos.Raw.IsValid s ⟨lastBoundary s n⟩ := by
  induction n with
  | zero => exact String.Pos.Raw.isValid_zero
  | succ n ih =>
      rw [lastBoundary_succ]
      split
      · next h => exact String.Pos.Raw.isValid_eq_true_iff.1 h
      · exact ih

theorem lastBoundary_le (s : String) (n : Nat) : lastBoundary s n ≤ n := by
  induction n with
  | zero => exact Nat.le_refl 0
  | succ n ih =>
      rw [lastBoundary_succ]
      split
      · exact Nat.le_refl (n + 1)
      · exact Nat.le_succ_of_le ih

/-- The walk passes no boundary. -/
theorem le_lastBoundary (h : String.Pos.Raw.IsValid s ⟨i⟩) (hi : i ≤ n) : i ≤ lastBoundary s n := by
  induction n with
  | zero => exact hi
  | succ n ih =>
      rw [lastBoundary_succ]
      split
      · exact hi
      · next hinside =>
          -- The byte at `n + 1` is inside of a character, so the boundary `i` is still before it.
          have hne : i ≠ n + 1 := by
            rintro rfl
            exact hinside (String.Pos.Raw.isValid_eq_true_iff.2 h)
          exact ih (by omega)

theorem lastBoundary_eq_utf8ByteSize (h : s.utf8ByteSize ≤ n) :
    lastBoundary s n = s.utf8ByteSize :=
  Nat.le_antisymm (isValid_lastBoundary s n).le_utf8ByteSize
    (le_lastBoundary String.Pos.Raw.isValid_rawEndPos h)

/-- A text can be sliced exactly behind a run of whole characters, which is the slice. -/
theorem sliceTo?_eq_some_iff :
    sliceTo? s i = some p ↔ (∃ r, s = p ++ r) ∧ p.utf8ByteSize = i := by
  constructor
  · intro h
    rw [sliceTo?] at h
    split at h
    · next hvalid =>
        obtain ⟨r, hsplits⟩ := String.copy_sliceTo_eq_iff_exists_splits.1 (Option.some.inj h)
        exact ⟨⟨r, hsplits.eq_append⟩,
          (congrArg String.Pos.Raw.byteIdx hsplits.offset_eq_rawEndPos).symm⟩
    · cases h
  · rintro ⟨⟨r, hr⟩, rfl⟩
    rw [sliceTo?, dif_pos (isValid_of_eq_append hr), Option.some.injEq,
      String.copy_sliceTo_eq_iff_exists_splits]
    exact ⟨r, hr, rfl⟩

/-- The longest run that fits ends where the walk does. -/
theorem isLongestWithin_iff :
    IsLongestWithin n s p ↔ (∃ r, s = p ++ r) ∧ p.utf8ByteSize = lastBoundary s n := by
  constructor
  · intro h
    refine ⟨h.begins, ?_⟩
    obtain ⟨t, hp⟩ := h.begins
    -- The run before the boundary that the walk finds fits, so it is no longer than `p`.
    obtain ⟨q, r, hq, hsize⟩ := exists_eq_append_of_isValid (isValid_lastBoundary s n)
    have hle : p.utf8ByteSize ≤ lastBoundary s n := le_lastBoundary (isValid_of_eq_append hp) h.fits
    have hlast := lastBoundary_le s n
    have hlonger := h.longest q r hq
    omega
  · rintro ⟨hbegins, hsize⟩
    refine ⟨hbegins, hsize ▸ lastBoundary_le s n, fun q r hq hlonger => ?_⟩
    refine Nat.not_le.1 fun hfits => ?_
    have := le_lastBoundary (isValid_of_eq_append hq) hfits
    omega

/-- A text that fits is also what is before its end, so that it is no case of its own. -/
theorem cutBack?_eq_sliceTo? (n : Nat) (s : String) :
    cutBack? n s = sliceTo? s (lastBoundary s n) := by
  rw [cutBack?]
  split
  · next h =>
      rw [lastBoundary_eq_utf8ByteSize h, eq_comm, sliceTo?_eq_some_iff]
      exact ⟨⟨"", String.append_empty.symm⟩, rfl⟩
  · rfl

/-- Walking back from the limit never fails, and finds exactly the longest run that fits. -/
theorem cutBack?_eq_some_iff : cutBack? n s = some p ↔ IsLongestWithin n s p := by
  rw [cutBack?_eq_sliceTo?, sliceTo?_eq_some_iff, isLongestWithin_iff]

/-! ## What is left of the limit -/

/-- A character has at most four bytes, so that the next one would fit if four were left. -/
theorem IsLongestWithin.le_add_three (h : IsLongestWithin n s p) (hn : n < s.utf8ByteSize) :
    n ≤ p.utf8ByteSize + 3 := by
  obtain ⟨r, rfl⟩ := h.begins
  have hr : r.toList ≠ [] := by
    intro hnil
    have hfits := h.fits
    rw [String.toList_eq_nil_iff.1 hnil, String.append_empty] at hn
    omega
  -- The run with the next character is longer, so it does not fit.
  obtain ⟨c, rest, hrest⟩ := List.exists_cons_of_ne_nil hr
  have hnext : p ++ r = (p ++ String.singleton c) ++ String.ofList rest := by
    rw [String.append_assoc, ← String.ofList_cons, ← hrest, String.ofList_toList]
  have hlonger := h.longest _ _ hnext
  have hpos := c.utf8Size_pos
  have hfour := c.utf8Size_le_four
  rw [String.utf8ByteSize_append, String.utf8ByteSize_singleton] at hlonger
  omega

/-! ## Marked texts -/

theorem clip_eq_self (h : s.utf8ByteSize ≤ n) : clip n s = s := by
  rw [clip, byteLength_toList, if_pos h]

theorem clip_eq_append (h : n < s.utf8ByteSize) :
    clip n s = String.ofList (takeBytes n s.toList) ++ "..." := by
  rw [clip, byteLength_toList, if_neg (Nat.not_le.2 h)]

theorem utf8ByteSize_clip_le (n : Nat) (s : String) : (clip n s).utf8ByteSize ≤ n + 3 := by
  by_cases h : s.utf8ByteSize ≤ n
  · rw [clip_eq_self h]
    omega
  · have hdots : "...".utf8ByteSize = 3 := rfl
    have hfits := (isLongestWithin_takeBytes n s).fits
    rw [clip_eq_append (Nat.not_le.1 h), String.utf8ByteSize_append, hdots]
    omega

/-- A text is cut to the longest run of whole characters that fits, whether characters are taken
from the front or one walks back from the limit, and at most three bytes of the limit are left over.
The message of a failure is the text itself, or that run for 512 bytes and three dots. -/
theorem texts_are_cut_between_characters (s : String) (n : Nat) :
    (∃ p, cutBack? n s = some p ∧ String.ofList (takeBytes n s.toList) = p ∧
        (∀ q, IsLongestWithin n s q ↔ q = p) ∧ (s.utf8ByteSize ≤ n → p = s) ∧
        (n < s.utf8ByteSize → n ≤ p.utf8ByteSize + 3)) ∧
      ∃ message, Outcome.failure s = .error message ∧ message.utf8ByteSize ≤ 515 ∧
        (s.utf8ByteSize ≤ 512 → message = s) ∧
        (512 < s.utf8ByteSize → ∃ p, IsLongestWithin 512 s p ∧ message = p ++ "...") := by
  have hlongest := isLongestWithin_takeBytes n s
  have hcut := cutBack?_eq_some_iff.2 hlongest
  constructor
  · refine ⟨_, hcut, rfl, fun q => ?_, fun h => ?_, hlongest.le_add_three⟩
    · rw [← cutBack?_eq_some_iff, hcut, Option.some.injEq, eq_comm]
    · rw [← byteLength_toList] at h
      rw [takeBytes_eq_self h, String.ofList_toList]
  · exact ⟨clip 512 s, rfl, utf8ByteSize_clip_le 512 s, clip_eq_self,
      fun h => ⟨_, isLongestWithin_takeBytes 512 s, clip_eq_append h⟩⟩

/-- The limit is inside of a character of four bytes, of which three would fit. -/
theorem texts_are_cut_before_wide_character :
    512 < (String.ofList (List.replicate 509 'a' ++ ['𝄞'])).utf8ByteSize ∧
      cutBack? 512 (String.ofList (List.replicate 509 'a' ++ ['𝄞'])) =
        some (String.ofList (List.replicate 509 'a')) ∧
      512 ≤ (String.ofList (List.replicate 509 'a')).utf8ByteSize + 3 ∧
      Outcome.failure (String.ofList (List.replicate 509 'a' ++ ['𝄞'])) =
        .error (String.ofList (List.replicate 509 'a') ++ "...") := by
  have hrun : byteLength (List.replicate 509 'a') = 509 := by decide +kernel
  have hlong : 512 < (String.ofList (List.replicate 509 'a' ++ ['𝄞'])).utf8ByteSize := by
    rw [utf8ByteSize_ofList, byteLength_append, hrun]
    decide
  have htake : takeBytes 512 (List.replicate 509 'a' ++ ['𝄞']) = List.replicate 509 'a' := by
    rw [takeBytes_append (by rw [hrun]; decide), hrun]
    exact List.append_nil _
  obtain ⟨⟨p, hcut, hp, hlongest, -, hleft⟩, message, hmessage, -, -, hmarked⟩ :=
    texts_are_cut_between_characters (String.ofList (List.replicate 509 'a' ++ ['𝄞'])) 512
  rw [String.toList_ofList, htake] at hp
  subst hp
  obtain ⟨q, hq, rfl⟩ := hmarked hlong
  rw [hmessage, (hlongest q).1 hq]
  exact ⟨hlong, hcut, hleft hlong, rfl⟩

end Text

end KeyedQuery
