import KeyedQuery.Dialect
import KeyedQuery.Json.Basic

/-!
# Settings

What a statement is compiled for: the dialect, the way identifiers are quoted, and a text put in
front of every table name. Settings can be read from JSON, as an object or as an array of the three
parts in order.
-/

namespace KeyedQuery

structure Settings where
  dialect : Dialect
  quoteStyle : QuoteStyle := .ansi
  /-- What stands in front of every table name. -/
  tablePrefix : String := ""
deriving DecidableEq, Repr

namespace Settings

/-- Checks that the dialect understands the way identifiers are quoted. -/
def validate (s : Settings) : Result Unit :=
  if s.quoteStyle.supportedBy s.dialect then .ok ()
  else s.dialect.lacks (.identifierQuoting s.quoteStyle)

/-- The name of a choice in JSON: a text, or an object whose only key is the name and whose value is
`null`. -/
def choice? : Json → Option String
  | .str name => some name
  | .obj [(name, .null)] => some name
  | _ => none

/-- Reads the three parts, of which all but the dialect may be absent. -/
def ofParts? (dialect quoteStyle tablePrefix : Option Json) : Option Settings := do
  let dialect ← (dialect.bind choice?).bind Dialect.ofName?
  let quoteStyle ←
    match quoteStyle with
    | none => some .ansi
    | some j => (choice? j).bind QuoteStyle.ofName?
  let tablePrefix ←
    match tablePrefix with
    | none => some ""
    | some j => j.asString?
  return { dialect, quoteStyle, tablePrefix }

/-- Reads settings. Names are spelt exactly, keys that are not known are passed over, and an array
has at most three items. -/
def ofJson? : Json → Option Settings
  | .obj fields =>
      ofParts? (Entries.get? fields "dialect") (Entries.get? fields "quote_style")
        (Entries.get? fields "prefix")
  | .arr items => if items.length ≤ 3 then ofParts? items[0]? items[1]? items[2]? else none
  | _ => none

theorem validate_eq_ok_iff (s : Settings) :
    s.validate = .ok () ↔ s.quoteStyle.supportedBy s.dialect = true := by
  unfold validate
  split <;> simp_all [Dialect.lacks]

end Settings

end KeyedQuery
