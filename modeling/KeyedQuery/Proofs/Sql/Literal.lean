import KeyedQuery.Proofs.Sql.Lexeme

/-!
# Literals inside a text

A text that starts with a string literal is read as the text of the literal and as what follows it.
A quoted text is read back exactly, with everything behind it, in front of whatever does not start
with a quote; in front of a quote the literal would go on.
-/

namespace KeyedQuery.Dialect

/-- Reads the string literal that a text starts with, and returns what follows it. -/
def takeLiteral? (d : Dialect) (sql : String) : Option (String × String) :=
  match sql.toList with
  | '\'' :: cs => (d.readLiteral? cs).map (Prod.map String.ofList String.ofList)
  | _ => none

variable (d : Dialect) (text : String)

/-- What is read of a quoted text is the text itself, in front of what its closing quote is read
as. -/
theorem takeLiteral?_quote_append (rest : String) :
    d.takeLiteral? (d.quote text ++ rest) =
      (d.readLiteral? ('\'' :: rest.toList)).map fun p =>
        (text ++ String.ofList p.1, String.ofList p.2) := by
  have hchars : (d.quote text ++ rest).toList =
      '\'' :: (text.toList.flatMap d.escapeChar ++ '\'' :: rest.toList) := by
    simp [quote, quoteChars]
  simp only [takeLiteral?, hchars, readLiteral?_escape_append, Option.map_map]
  congr 1
  funext p
  change (String.ofList (text.toList ++ p.1), String.ofList p.2) = _
  rw [String.ofList_append, String.ofList_toList]

theorem takeLiteral?_quote_append_of_ne {rest : String} (h : rest.toList.head? ≠ some '\'') :
    d.takeLiteral? (d.quote text ++ rest) = some (text, rest) := by
  rw [takeLiteral?_quote_append, readLiteral?_quote d h]
  simp

theorem takeLiteral?_quote : d.takeLiteral? (d.quote text) = some (text, "") := by
  have hend : ("" : String).toList.head? ≠ some '\'' := by simp
  simpa using takeLiteral?_quote_append_of_ne d text hend

/-- A quoted text is read back, with exactly what follows it left over, unless that starts with a
quote. -/
theorem takeLiteral?_quote_append_eq_some_iff (rest : String) :
    d.takeLiteral? (d.quote text ++ rest) = some (text, rest) ↔ rest.toList.head? ≠ some '\'' := by
  refine ⟨fun h hquote => ?_, takeLiteral?_quote_append_of_ne d text⟩
  -- A second quote is read as part of the text, which then is longer than it was.
  obtain ⟨tail, htail⟩ := List.head?_eq_some_iff.1 hquote
  rw [takeLiteral?_quote_append, htail, readLiteral?, Option.map_map, Option.map_eq_some_iff] at h
  obtain ⟨p, -, hp⟩ := h
  have hlength := congrArg (String.length ∘ Prod.fst) hp
  simp at hlength

/-- Neither a backslash in front of the closing quote nor the code behind it is mistaken. -/
example : takeLiteral? .mysql "'a''b\\\\' OR ''='" = some ("a'b\\", " OR ''='") := by decide

end KeyedQuery.Dialect
