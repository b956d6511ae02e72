import KeyedQuery.Proofs.Sql.Lexeme
import KeyedQuery.Proofs.Result
import KeyedQuery.Sql.Literal

/-!
# Payloads of values

A text that a caller passes as a value is a payload: it reaches a statement as the content of a
string literal and in no other way. The only exception is a text that stands directly under a raw
key. Masking a value empties its payloads, and blanking a fragment empties its string literals; the
literal of a masked value is the blanked literal of the value.
-/

namespace KeyedQuery

open Sql

/-! ## Blanking -/

def Piece.blank : Piece → Piece
  | literal _ => literal ""
  | p => p

def Sql.Lexeme.blank : Lexeme → Lexeme
  | literal _ => literal ""
  | l => l

namespace Fragment

/-- The fragment with all of its string literals emptied. -/
def blank (f : Fragment) : Fragment := f.map Piece.blank

@[simp] theorem blank_nil : blank [] = [] := rfl

@[simp] theorem blank_cons (p : Piece) (f : Fragment) : blank (p :: f) = p.blank :: blank f := rfl

@[simp] theorem blank_append (f g : Fragment) : blank (f ++ g) = blank f ++ blank g := by
  simp [blank]

@[simp] theorem blank_parens (f : Fragment) : blank (parens f) = parens (blank f) := by
  simp [parens, Piece.blank]

theorem blank_join (separator : String) (fragments : List Fragment) :
    blank (join separator fragments) = join separator (fragments.map blank) := by
  induction fragments with
  | nil => rfl
  | cons f fragments ih =>
      cases fragments with
      | nil => simp
      | cons g fragments =>
          rw [join_cons_cons, blank_append, blank_cons, ih]
          exact (join_cons_cons _ _ _ _).symm

theorem map_blank_map_parens (fragments : List Fragment) :
    (fragments.map parens).map blank = (fragments.map blank).map parens := by
  simp [Function.comp_def]

@[simp] theorem isEmpty_blank (f : Fragment) : (blank f).isEmpty = f.isEmpty := by
  simp [blank]

theorem lexemes_blank (f : Fragment) : (blank f).lexemes = f.lexemes.map Lexeme.blank := by
  induction f with
  | nil => rfl
  | cons p f ih =>
      have hp : p.blank.lexemes = p.lexemes.map Lexeme.blank := by
        cases p with
        | code text => simp [Piece.blank, Piece.lexemes, Lexeme.blank]
        | name text => rfl
        | literal text => rfl
        | call text => simp [Piece.blank, Piece.lexemes, Lexeme.blank]
      change p.blank.lexemes ++ lexemes (blank f) = (p.lexemes ++ lexemes f).map Lexeme.blank
      rw [ih, hp, List.map_append]

end Fragment

/-! ## Masking -/

namespace Value

mutual

def mask : Value → Value
  | text _ => text ""
  | list items => list (maskAll items)
  | null => null
  | bool b => bool b
  | int n => int n
  | float x => float x

def maskAll : List Value → List Value
  | [] => []
  | v :: rest => v.mask :: maskAll rest

end

theorem maskAll_eq_map (items : List Value) : maskAll items = items.map mask := by
  induction items with
  | nil => rfl
  | cons v rest ih => rw [maskAll, ih, List.map_cons]

/-- The value with its payloads emptied; `kept` says whether a text that stands alone is none. -/
def maskUnless (kept : Bool) : Value → Value
  | text t => text (if kept then t else "")
  | v => v.mask

@[simp] theorem tag_maskUnless (kept : Bool) (v : Value) : (v.maskUnless kept).tag = v.tag := by
  cases v <;> rfl

@[simp] theorem isList_mask (v : Value) : v.mask.isList = v.isList := by
  cases v <;> rfl

@[simp] theorem numericSql?_maskUnless (kept : Bool) (v : Value) :
    (v.maskUnless kept).numericSql? = v.numericSql? := by
  cases v <;> rfl

end Value

namespace Literal

theorem blank_ofText (raw : Bool) (text : String) :
    (ofText raw (if raw then text else "")).blank = (ofText raw text).blank := by
  cases raw <;> rfl

/-- The payloads of a value change nothing but the content of its literal. -/
theorem map_blank_ofValue (raw : Bool) (v : Value) :
    (ofValue raw (v.maskUnless raw)).map Piece.blank = (ofValue raw v).map Piece.blank := by
  cases v with
  | text t => exact congrArg Except.ok (blank_ofText raw t)
  | null => rfl
  | bool b => rfl
  | int n => rfl
  | float x => rfl
  | list items => rfl

theorem map_blank_ofScalar (v : Value) :
    (ofScalar v.mask).map Piece.blank = (ofScalar v).map Piece.blank := by
  cases v <;> rfl

theorem map_blank_ofScalars (values : List Value) :
    (ofScalars (values.map Value.mask)).map Fragment.blank =
      (ofScalars values).map Fragment.blank := by
  refine Result.map_do_congr (k := List.map Piece.blank)
    (Result.map_mapM_congr fun v _ => map_blank_ofScalar v) fun ps qs h => ?_
  refine congrArg Except.ok ?_
  have hsingle : ∀ pieces : List Piece,
      (pieces.map fun p => [p]).map Fragment.blank = (pieces.map Piece.blank).map fun p => [p] := by
    intro pieces
    simp [Function.comp_def, Fragment.blank]
  rw [Fragment.blank_join, Fragment.blank_join, hsingle, hsingle, h]

end Literal

end KeyedQuery
