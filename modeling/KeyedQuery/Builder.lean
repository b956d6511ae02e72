import KeyedQuery.Write.Statement

/-!
# Builders

A builder holds settings whose way of quoting the dialect understands, and writes the text of
statements. Its functions depend on nothing but the settings and their arguments.
-/

namespace KeyedQuery

/-- Settings that statements can be written for. -/
structure Builder where
  settings : Settings
  supported : settings.quoteStyle.supportedBy settings.dialect = true

namespace Builder

def ofSettings (s : Settings) : Result Builder :=
  if h : s.quoteStyle.supportedBy s.dialect = true then .ok ⟨s, h⟩
  else s.dialect.lacks (.identifierQuoting s.quoteStyle)

def write (b : Builder) (statement : Result Fragment) : Result String :=
  statement.map (Fragment.text b.settings)

def select (b : Builder) (q : Query) : Result String := b.write (q.selectSql b.settings)

def get (b : Builder) (q : Query) : Result String := b.write (q.getSql b.settings)

def has (b : Builder) (q : Query) : Result String := b.write (q.hasSql b.settings)

def aggregate (b : Builder) (a : Aggregate) (q : Query) : Result String :=
  b.write (q.aggregateSql b.settings a)

/-- The statement that is run for the column names of a table. -/
def headers (b : Builder) (table : String) : Result String :=
  b.write (Query.headersSql b.settings table)

/-- One statement for every row of an insertion. -/
def insert (b : Builder) (i : Insertion) : Result (List String) :=
  (i.eachSql b.settings).map fun statements => statements.map (Fragment.text b.settings)

/-- One statement for all rows of an insertion. -/
def multiInsert (b : Builder) (i : Insertion) : Result String := b.write (i.togetherSql b.settings)

def update (b : Builder) (u : Update) : Result String := b.write (u.toSql b.settings)

def replace (b : Builder) (table : String) (substitutions : List Substitution)
    (clauses : Clauses) : Result String :=
  b.write (Substitution.toSql b.settings table substitutions clauses)

def delete (b : Builder) (d : Deletion) : Result String := b.write (d.toSql b.settings)

def truncate (b : Builder) (table : String) : Result String :=
  b.write (Write.truncateSql b.settings table)

end Builder

end KeyedQuery
