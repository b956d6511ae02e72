import KeyedQuery.Proofs.Sql.Composition

/-!
# Balanced texts

A text is balanced if it ends outside of all quotation and its parentheses, as far as they are not
quoted, match. This is said by the depth of parentheses after its lexemes, which is undefined where
a parenthesis is closed that is not open, and behind a quotation that is never closed.

A piece of a statement changes the depth by the same amount wherever it stands, if only no mark of
quotation comes after it. `Fragment.Shifts` says so, and the lemmas about it follow the ways in
which fragments are put together.
-/

namespace KeyedQuery

open Sql

namespace Sql

/-- The depth of parentheses after a character. -/
def nestChar? (depth : Nat) (c : Char) : Option Nat :=
  if c = '(' then some (depth + 1)
  else if c = ')' then
    match depth with
    | 0 => none
    | outer + 1 => some outer
  else some depth

def Lexeme.nest? (depth : Nat) : Lexeme → Option Nat
  | char c => nestChar? depth c
  | name _ => some depth
  | literal _ => some depth
  | unclosed _ => none

/-- The depth of parentheses after lexemes. -/
def depth? (depth : Nat) (ls : List Lexeme) : Option Nat := ls.foldlM Lexeme.nest? depth

/-- A text that ends outside of all quotation and of all parentheses. -/
def IsBalanced (s : Settings) (text : String) : Prop := depth? 0 (scan s text.toList) = some 0

@[simp] theorem depth?_nil (d : Nat) : depth? d [] = some d := rfl

theorem depth?_cons (d : Nat) (l : Lexeme) (ls : List Lexeme) :
    depth? d (l :: ls) = (l.nest? d).bind fun e => depth? e ls :=
  rfl

theorem depth?_append (d : Nat) (ls ls' : List Lexeme) :
    depth? d (ls ++ ls') = (depth? d ls).bind fun e => depth? e ls' :=
  List.foldlM_append

/-! ## The depth around lexemes -/

theorem nestChar?_add {c : Char} {d e : Nat} (h : nestChar? d c = some e) (k : Nat) :
    nestChar? (d + k) c = some (e + k) := by
  unfold nestChar? at h ⊢
  split at h
  · next hopen =>
      obtain rfl := Option.some.inj h
      rw [if_pos hopen, Nat.add_right_comm]
  next hopen =>
  split at h
  · next hclose =>
      cases d with
      | zero => simp at h
      | succ d =>
          obtain rfl := Option.some.inj h
          rw [if_neg hopen, if_pos hclose, Nat.add_right_comm]
  · next hclose =>
      obtain rfl := Option.some.inj h
      rw [if_neg hopen, if_neg hclose]

theorem Lexeme.nest?_add {l : Lexeme} {d e : Nat} (h : l.nest? d = some e) (k : Nat) :
    l.nest? (d + k) = some (e + k) := by
  cases l with
  | char c => exact nestChar?_add h k
  | name text => exact congrArg (fun n => some (n + k)) (Option.some.inj h)
  | literal text => exact congrArg (fun n => some (n + k)) (Option.some.inj h)
  | unclosed rest => cases h

/-- Lexemes change the depth by the same amount, however deep they stand. -/
theorem depth?_add {ls : List Lexeme} {d e : Nat} (h : depth? d ls = some e) (k : Nat) :
    depth? (d + k) ls = some (e + k) := by
  induction ls generalizing d with
  | nil =>
      rw [depth?_nil, Option.some.injEq] at h
      rw [h, depth?_nil]
  | cons l ls ih =>
      rw [depth?_cons] at h ⊢
      obtain ⟨d', hl, hls⟩ := Option.bind_eq_some_iff.1 h
      rw [Lexeme.nest?_add hl k]
      exact ih hls

theorem depth?_of_isUnnested {cs : List Char} (h : isUnnested cs = true) (d : Nat) :
    depth? d (cs.map .char) = some d := by
  induction cs with
  | nil => exact depth?_nil d
  | cons c cs ih =>
      simp only [isUnnested, List.all_cons, Bool.and_eq_true, bne_iff_ne, ne_eq] at h
      obtain ⟨⟨hopen, hclose⟩, h⟩ := h
      have hchar : nestChar? d c = some d := by
        unfold nestChar?
        rw [if_neg hopen, if_neg hclose]
      rw [List.map_cons, depth?_cons, Lexeme.nest?, hchar]
      exact ih h

theorem depth?_of_isFlat {text : String} (h : isFlat text = true) (d : Nat) :
    depth? d (text.toList.map .char) = some d :=
  depth?_of_isUnnested (Bool.and_eq_true_iff.1 h).2 d

theorem depth?_of_isOpening {text : String} (h : isOpening text = true) (d : Nat) :
    depth? d (text.toList.map .char) = some (d + 1) := by
  simp only [isOpening, Bool.and_eq_true, beq_iff_eq] at h
  obtain ⟨⟨-, hlast⟩, hunnested⟩ := h
  obtain ⟨cs, hcs⟩ := List.getLast?_eq_some_iff.1 hlast
  rw [hcs, List.dropLast_concat] at hunnested
  rw [hcs, List.map_append, depth?_append, depth?_of_isUnnested hunnested]
  rfl

theorem depth?_of_not_mem_closing {cs : List Char} (h : ')' ∉ cs) (d : Nat) :
    depth? d (cs.map .char) = some (d + cs.count '(') := by
  induction cs generalizing d with
  | nil => exact depth?_nil d
  | cons c cs ih =>
      rw [List.mem_cons, not_or] at h
      rw [List.map_cons, depth?_cons, Lexeme.nest?, nestChar?.eq_def]
      split
      · next hopen =>
          rw [hopen, List.count_cons_self, Option.bind_some, ih h.2, Nat.add_right_comm]
          rfl
      · next hopen =>
          rw [if_neg fun hc => h.1 hc.symm, List.count_cons_of_ne hopen]
          exact ih h.2 d

theorem closed_of_depth? {ls : List Lexeme} {d e : Nat} (h : depth? d ls = some e)
    (rest : List Char) : .unclosed rest ∉ ls := by
  induction ls generalizing d with
  | nil => exact List.not_mem_nil
  | cons l ls ih =>
      rw [depth?_cons] at h
      obtain ⟨d', hl, hls⟩ := Option.bind_eq_some_iff.1 h
      rintro (_ | _)
      · cases hl
      · exact ih hls ‹_›

end Sql

/-! ## Texts that are closed -/

/-- No mark of quotation comes first that could belong to a quotation before it. -/
structure Settings.Stops (s : Settings) (rest : List Char) : Prop where
  literal : rest.head? ≠ some '\''
  name : rest.head? ≠ some s.quoteStyle.closing

theorem Settings.stops_nil (s : Settings) : s.Stops [] := ⟨by simp, by simp⟩

theorem Settings.Plain.stops {s : Settings} {cs : List Char} (h : s.Plain cs) (hcs : cs ≠ [])
    (rest : List Char) : s.Stops (cs ++ rest) :=
  ⟨(h.head?_ne hcs rest).1, (h.head?_ne hcs rest).2⟩

theorem Dialect.readLiteral?_append {d : Dialect} {cs text after rest : List Char}
    (h : d.readLiteral? cs = some (text, after)) (hrest : rest.head? ≠ some '\'') :
    d.readLiteral? (cs ++ rest) = some (text, after ++ rest) := by
  fun_induction d.readLiteral? cs generalizing text with
  | case1 => simp at h
  | case2 tail ih =>
      obtain ⟨⟨t, a⟩, ht, heq⟩ := Option.map_eq_some_iff.1 h
      obtain ⟨rfl, rfl⟩ := Prod.mk.inj heq
      simp only [List.cons_append, readLiteral?, ih ht]
      rfl
  | case3 tail htail =>
      obtain ⟨rfl, rfl⟩ := Prod.mk.inj (Option.some.inj h)
      rw [List.cons_append, readLiteral?]
      intro r hr
      cases tail with
      | nil => exact hrest (by rw [show rest = '\'' :: r from hr]; rfl)
      | cons c tail => exact htail tail (by rw [(List.cons.inj hr).1])
  | case4 c tail hd ih =>
      obtain ⟨⟨t, a⟩, ht, heq⟩ := Option.map_eq_some_iff.1 h
      obtain ⟨rfl, rfl⟩ := Prod.mk.inj heq
      simp only [List.cons_append, readLiteral?, hd, ih ht]
      rfl
  | case5 c tail hd ih =>
      obtain ⟨⟨t, a⟩, ht, heq⟩ := Option.map_eq_some_iff.1 h
      obtain ⟨rfl, rfl⟩ := Prod.mk.inj heq
      have hih := ih ht
      rw [List.cons_append] at hih
      simp only [List.cons_append, readLiteral?, hd, hih]
      rfl
  | case6 c tail hpair hquote hslash ih =>
      obtain ⟨⟨t, a⟩, ht, heq⟩ := Option.map_eq_some_iff.1 h
      obtain ⟨rfl, rfl⟩ := Prod.mk.inj heq
      have hc : c ≠ '\\' := by
        rintro rfl
        cases tail with
        | nil => simp [readLiteral?] at ht
        | cons e tail => exact hslash e tail rfl rfl
      rw [List.cons_append, readLiteral?_cons_of_ne _ hquote fun h => absurd h hc, ih ht]
      rfl

theorem QuoteStyle.readName?_append_right {q : QuoteStyle} {cs text after rest : List Char}
    (h : q.readName? cs = some (text, after)) (hrest : rest.head? ≠ some q.closing) :
    q.readName? (cs ++ rest) = some (text, after ++ rest) := by
  fun_induction q.readName? cs generalizing text with
  | case1 => simp at h
  | case2 =>
      obtain ⟨rfl, rfl⟩ := Prod.mk.inj (Option.some.inj h)
      exact @QuoteStyle.readName?_append q [] rest List.not_mem_nil hrest
  | case3 => simp at h
  | case4 c e tail hc ih =>
      obtain ⟨⟨t, a⟩, ht, heq⟩ := Option.map_eq_some_iff.1 h
      obtain ⟨rfl, rfl⟩ := Prod.mk.inj heq
      have hih := ih ht
      rw [List.cons_append] at hih
      rw [List.cons_append, List.cons_append, readName?, if_pos hc, hih]
      rfl
  | case5 c tail hc ih =>
      obtain ⟨⟨t, a⟩, ht, heq⟩ := Option.map_eq_some_iff.1 h
      obtain ⟨rfl, rfl⟩ := Prod.mk.inj heq
      rw [List.cons_append, List.cons_append, readName?, if_neg hc, if_pos rfl, ih ht]
      rfl
  | case6 c e tail hc he =>
      obtain ⟨rfl, rfl⟩ := Prod.mk.inj (Option.some.inj h)
      rw [List.cons_append, List.cons_append, readName?, if_neg hc, if_neg he]

namespace Sql

theorem Lexeme.ofQuotation_append {lexeme : String → Lexeme} {mark : Char} {cs rest : List Char}
    {o o' : Option (List Char × List Char)}
    (h : ∀ text after, o = some (text, after) → o' = some (text, after ++ rest))
    (hclosed : ∀ r, (ofQuotation lexeme mark cs o).1 ≠ .unclosed r) :
    ofQuotation lexeme mark (cs ++ rest) o' =
      ((ofQuotation lexeme mark cs o).1, (ofQuotation lexeme mark cs o).2 ++ rest) := by
  cases o with
  | none => exact absurd rfl (hclosed (mark :: cs))
  | some p => rw [h p.1 p.2 rfl, ofQuotation, ofQuotation]

/-- A lexeme that is closed is read in the same way, whatever follows. -/
theorem Lexeme.read_append {s : Settings} {c : Char} {cs rest : List Char} (hrest : s.Stops rest)
    (hclosed : ∀ r, (read s c cs).1 ≠ .unclosed r) :
    read s c (cs ++ rest) = ((read s c cs).1, (read s c cs).2 ++ rest) := by
  unfold read at hclosed ⊢
  split at hclosed
  · next hc =>
      rw [if_pos hc, if_pos hc]
      exact ofQuotation_append
        (fun _ _ h => s.dialect.readLiteral?_append h hrest.literal) hclosed
  next hc =>
  split at hclosed
  · next hopen =>
      rw [if_neg hc, if_pos hopen, if_neg hc, if_pos hopen]
      exact ofQuotation_append
        (fun _ _ h => s.quoteStyle.readName?_append_right h hrest.name) hclosed
  · next hopen => rw [if_neg hc, if_neg hopen, if_neg hc, if_neg hopen]

/-- A text that is closed is read in the same way, whatever follows. -/
theorem scan_append_of_closed {s : Settings} {cs rest : List Char} (hrest : s.Stops rest)
    (hclosed : ∀ r, .unclosed r ∉ scan s cs) : scan s (cs ++ rest) = scan s cs ++ scan s rest := by
  fun_induction scan s cs with
  | case1 => rfl
  | case2 c cs _ ih =>
      simp only [List.mem_cons, not_or] at hclosed
      rw [List.cons_append, scan_cons, Lexeme.read_append hrest fun r h => (hclosed r).1 h.symm,
        ih fun r => (hclosed r).2]
      rfl

end Sql

/-! ## What pieces do to the depth -/

namespace Fragment

/-- The fragment changes the depth from `i` to `j`, and by the same amount from any greater one. -/
def Shifts (s : Settings) (i j : Nat) (f : Fragment) : Prop :=
  ∀ d rest, s.Stops rest →
    depth? (d + i) (scan s (f.chars s ++ rest)) = depth? (d + j) (scan s rest)

variable {s : Settings} {i j k : Nat} {f g : Fragment} {text : String}

abbrev Neutral (s : Settings) (f : Fragment) : Prop := Shifts s 0 0 f

theorem Neutral.balanced (h : Neutral s f) : IsBalanced s (f.text s) := by
  rw [IsBalanced, toList_text, ← List.append_nil (chars s f)]
  exact (h 0 [] s.stops_nil).trans (by rw [scan_nil]; rfl)

theorem Shifts.succ (h : Shifts s i j f) : Shifts s (i + 1) (j + 1) f := by
  intro d rest hrest
  rw [← Nat.add_assoc, Nat.add_right_comm, h (d + 1) rest hrest, Nat.add_right_comm]
  rfl

theorem neutral_nil (s : Settings) : Neutral s [] := fun _ _ _ => rfl

theorem neutral_name (h : s.quoteStyle.AbsentFrom text) : Neutral s [.name text] := by
  intro d rest hrest
  rw [chars_cons, chars_nil, List.append_nil, Piece.chars, scan_name h hrest.name]
  rfl

theorem neutral_literal (s : Settings) (text : String) : Neutral s [.literal text] := by
  intro d rest hrest
  rw [chars_cons, chars_nil, List.append_nil, Piece.chars, scan_literal s text hrest.literal]
  rfl

/-- A text that is balanced may stand as a call. -/
theorem neutral_call (h : IsBalanced s text) : Neutral s [.call text] := by
  intro d rest hrest
  have hdepth := depth?_add h d
  rw [Nat.zero_add] at hdepth
  rw [chars_cons, chars_nil, List.append_nil, Piece.chars,
    scan_append_of_closed hrest (closed_of_depth? h), depth?_append, Nat.add_zero, hdepth]
  rfl

theorem Shifts.cons_code (hg : Shifts s j k g) (hcode : isCode text = true)
    (hdepth : ∀ d, depth? (d + i) (text.toList.map .char) = some (d + j)) :
    Shifts s i k (.code text :: g) := by
  intro d rest hrest
  rw [chars_cons, Piece.chars, List.append_assoc,
    scan_append_of_plain (s.plain_of_isCode hcode).2, depth?_append, hdepth]
  exact hg d rest hrest

theorem Shifts.append_code (hf : Shifts s i j f) (hcode : isCode text = true)
    (hg : Shifts s j k (.code text :: g)) : Shifts s i k (f ++ .code text :: g) := by
  intro d rest hrest
  obtain ⟨hne, hplain⟩ := s.plain_of_isCode hcode
  rw [chars_append, List.append_assoc, hf d _ ?_, hg d rest hrest]
  rw [chars_cons, Piece.chars, List.append_assoc]
  exact hplain.stops hne _

/-- Code with a parenthesis that it opens, a fragment, and the code that closes it. -/
theorem Neutral.enclose (hf : Neutral s f) (h : isOpening text = true) :
    Neutral s (.code text :: (f ++ [.code ")"])) := by
  have hclose : Shifts s 1 0 [.code ")"] := (neutral_nil s).cons_code (by decide) fun _ => rfl
  exact Shifts.cons_code (hf.succ.append_code (by decide) hclose) (isCode_of_isOpening h)
    (depth?_of_isOpening h)

/-- What is put together from fragments that leave the depth as it is does so as well. -/
theorem compositional_neutral (s : Settings) : Compositional (Neutral s) where
  nil := neutral_nil s
  literal := neutral_literal s
  append hf h hg := Shifts.append_code hf (isCode_of_isFlat h)
    (Shifts.cons_code hg (isCode_of_isFlat h) (depth?_of_isFlat h))
  enclose hf h hg := Shifts.append_code hf (isCode_of_isOpening h) (hg.enclose h)

end Fragment

end KeyedQuery
