import KeyedQuery.Identifier

/-!
# Fragments of SQL

A statement is put together from pieces: code that stands for itself, names, texts and calls. Only
when a whole fragment is written do the settings decide how a name is quoted and how a text is
escaped, so nothing that a caller passes as a name or as a text can be taken for code before it has
been quoted.

A text is written between single quotes. A quote inside it is written twice; where the backslash is
an escape character it is written twice as well, and the null character as a backslash and a zero.
-/

namespace KeyedQuery

/-- A piece of SQL, which says what it is for until the settings decide how it is written. -/
inductive Piece where
  /-- Keywords, operators, numbers and punctuation. -/
  | code (text : String)
  /-- A segment of an identifier, to be quoted. -/
  | name (text : String)
  /-- A text, to be written as a string literal. -/
  | literal (text : String)
  /-- A function call that a raw key lets through as it is. -/
  | call (text : String)
deriving DecidableEq, Repr

abbrev Fragment := List Piece

def Dialect.escapeChar (d : Dialect) (c : Char) : List Char :=
  if c = '\'' then ['\'', '\'']
  else if d.escapesBackslash && c == '\\' then ['\\', '\\']
  else if d.escapesBackslash && c == '\x00' then ['\\', '0']
  else [c]

def Dialect.quoteChars (d : Dialect) (cs : List Char) : List Char :=
  '\'' :: cs.flatMap d.escapeChar ++ ['\'']

def Dialect.quote (d : Dialect) (text : String) : String :=
  String.ofList (d.quoteChars text.toList)

def QuoteStyle.quoteChars (q : QuoteStyle) (cs : List Char) : List Char :=
  q.opening :: cs ++ [q.closing]

def Piece.chars (s : Settings) : Piece → List Char
  | code text => text.toList
  | name text => s.quoteStyle.quoteChars text.toList
  | literal text => s.dialect.quoteChars text.toList
  | call text => text.toList

namespace Fragment

def chars (s : Settings) (f : Fragment) : List Char := f.flatMap (Piece.chars s)

def text (s : Settings) (f : Fragment) : String := String.ofList (chars s f)

def join (separator : String) (fragments : List Fragment) : Fragment :=
  [Piece.code separator].intercalate fragments

def parens (f : Fragment) : Fragment := .code "(" :: f ++ [.code ")"]

def labelled (f label : Fragment) : Fragment := f ++ .code " AS " :: label

@[simp] theorem chars_nil (s : Settings) : chars s [] = [] := rfl

@[simp] theorem chars_cons (s : Settings) (p : Piece) (f : Fragment) :
    chars s (p :: f) = p.chars s ++ chars s f := rfl

@[simp] theorem chars_append (s : Settings) (f g : Fragment) :
    chars s (f ++ g) = chars s f ++ chars s g := by
  simp [chars]

@[simp] theorem chars_parens (s : Settings) (f : Fragment) :
    chars s (parens f) = '(' :: chars s f ++ [')'] := by
  simp [parens, Piece.chars]

@[simp] theorem join_nil (separator : String) : join separator [] = [] := rfl

@[simp] theorem join_singleton (separator : String) (f : Fragment) :
    join separator [f] = f := by
  simp [join]

theorem join_cons_cons (separator : String) (f g : Fragment) (rest : List Fragment) :
    join separator (f :: g :: rest) = f ++ .code separator :: join separator (g :: rest) := by
  simp [join, List.intercalate]

@[simp] theorem toList_text (s : Settings) (f : Fragment) : (text s f).toList = chars s f := by
  simp [text]

end Fragment

namespace Identifier

def Part.piece : Part → Piece
  | name text => .name text
  | star => .code "*"

def toSql (i : Identifier) : Fragment := Fragment.join "." (i.map fun part => [part.piece])

end Identifier

namespace Settings

def table (s : Settings) (name : String) : Fragment :=
  (Identifier.ofTable name s.tablePrefix).toSql

/-- A table name under the prefix, without the blanks around it; it must not be empty. -/
def checkedTable (s : Settings) (name : String) : Result Fragment :=
  let name := Text.trim name
  if name = "" then fault .missingTable else .ok (s.table name)

def column (s : Settings) (name : String) : Fragment :=
  (Identifier.ofColumn name s.tablePrefix).toSql

def quoteTable (s : Settings) (name : String) : String := (s.table name).text s

def quoteColumn (s : Settings) (name : String) : String := (s.column name).text s

/-- The quoted text of a single name, which takes no prefix. -/
def quoteName (s : Settings) (name : String) : String := (Identifier.ofName name).toSql.text s

end Settings

end KeyedQuery
