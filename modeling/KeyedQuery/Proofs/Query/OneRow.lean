import KeyedQuery.Proofs.Clause.Filter

/-!
# One row of a query

The clauses of a statement end in their limit, and before the limit in their order, so each can be
taken off and put behind the statement that is written without it. The statement for one row is
therefore the statement for all rows and the clause that takes one of them. Only SQL Server wants
more: where the query has no order, the statement says so before that clause.
-/

namespace KeyedQuery

variable {s : Settings}

theorem Fragment.text_append (s : Settings) (f g : Fragment) :
    (f ++ g).text s = f.text s ++ g.text s := by
  simp [text]

theorem Fragment.text_code (s : Settings) (code : String) : text s [.code code] = code := by
  rw [text_cons_code]
  exact String.append_empty

/-! ## Clauses without a limit and without an order -/

namespace Clauses

def unlimited (c : Clauses) : Clauses := { c with limit := none }

def unordered (c : Clauses) : Clauses := { c with order := none }

/-- The limit stands behind all other clauses. -/
theorem toSql_eq_unlimited (c : Clauses) :
    c.toSql s = do
      let rest ← c.unlimited.toSql s
      let limit ← c.limitSql s
      return rest ++ limit := by
  have hlimit : c.unlimited.limitSql s = pure [] := rfl
  simp only [toSql, hlimit, pure_bind, bind_assoc, List.append_nil]
  rfl

theorem toSql_eq_unordered {c : Clauses} (h : c.limit = none) :
    c.toSql s = do
      let rest ← c.unordered.toSql s
      let order ← c.orderSql s
      return rest ++ order := by
  have hlimit : c.limitSql s = pure [] := by rw [limitSql, h]; rfl
  have hlimit' : c.unordered.limitSql s = pure [] := by rw [limitSql, unordered, h]; rfl
  have horder : c.unordered.orderSql s = pure [] := rfl
  simp only [toSql, hlimit, hlimit', horder, pure_bind, bind_assoc, List.append_nil]
  rfl

end Clauses

namespace Query

def unlimited (q : Query) : Query := q.withClauses q.clauses.unlimited

def unordered (q : Query) : Query := q.withClauses q.clauses.unordered

variable {q : Query}

/-- What stands behind the clauses stands behind the whole statement. -/
theorem selectSql_eq_of_clauses {c : Clauses} {last : Result Fragment}
    (h : q.clauses.toSql s = do
      let rest ← c.toSql s
      let f ← last
      return rest ++ f) :
    q.selectSql s = do
      let rest ← (q.withClauses c).selectSql s
      let f ← last
      return rest ++ f := by
  simp only [selectSql, h, bind_assoc, pure_bind, List.append_assoc, List.cons_append]
  rfl

theorem selectSql_eq_unlimited (q : Query) :
    q.selectSql s = do
      let rest ← q.unlimited.selectSql s
      let limit ← q.clauses.limitSql s
      return rest ++ limit :=
  selectSql_eq_of_clauses q.clauses.toSql_eq_unlimited

theorem selectSql_eq_unordered (h : q.clauses.limit = none) :
    q.selectSql s = do
      let rest ← q.unordered.selectSql s
      let order ← q.clauses.orderSql s
      return rest ++ order :=
  selectSql_eq_of_clauses (Clauses.toSql_eq_unordered h)

end Query

/-! ## The clause for one row -/

/-- The clause with which a dialect takes one row, a blank before it. Sybase has none. -/
def Dialect.oneRow : Dialect → String
  | mysql | postgres | sqlite => " LIMIT 1"
  | oracle => " FETCH FIRST 1 ROWS ONLY"
  | mssql => " OFFSET 0 ROWS FETCH NEXT 1 ROWS ONLY"
  | sybase => ""

theorem Limit.toSql_one {d : Dialect} (h : d ≠ .sybase) :
    (count 1).toSql d true = .ok d.oneRow := by
  cases d with
  | sybase => exact absurd rfl h
  | mysql | postgres | mssql | sqlite | oracle => decide

/-- Only SQL Server looks at whether there is an order. -/
theorem Limit.toSql_eq_ordered {d : Dialect} (h : d ≠ .mssql) (ordered : Bool) (limit : Limit) :
    limit.toSql d ordered = limit.toSql d true := by
  cases d with
  | mssql => exact absurd rfl h
  | mysql | postgres | sqlite | oracle | sybase => cases limit <;> rfl

/-! ## Statements -/

namespace Builder

variable {b : Builder} {q : Query}

theorem write_append (x y : Result Fragment) :
    (b.write do
      let f ← x
      let g ← y
      return f ++ g) = do
      let text ← b.write x
      let rest ← b.write y
      return text ++ rest := by
  cases x with
  | error e => rfl
  | ok f =>
      cases y with
      | error e => rfl
      | ok g => exact congrArg Except.ok (Fragment.text_append b.settings f g)

theorem select_withLimit (b : Builder) (q : Query) (limit : Limit) :
    b.select (q.withLimit limit) = do
      let text ← b.select q.unlimited
      let clause ← limit.toSql b.settings.dialect q.clauses.order.isSome
      return text ++ clause := by
  have hclause : b.write ((q.withLimit limit).clauses.limitSql b.settings) =
      limit.toSql b.settings.dialect q.clauses.order.isSome := by
    simp only [Query.withLimit, Clauses.limitSql, write]
    cases limit.toSql b.settings.dialect q.clauses.order.isSome with
    | error e => rfl
    | ok text => exact congrArg Except.ok (Fragment.text_code b.settings text)
  rw [select, Query.selectSql_eq_unlimited, write_append, hclause]
  rfl

theorem select_unlimited {order : Order} (h : q.clauses.order = some order) :
    b.select q.unlimited = do
      let text ← b.select q.unlimited.unordered
      let items ← b.write (order.toSql b.settings)
      return text ++ (" ORDER BY " ++ items) := by
  have hitems : b.write (q.unlimited.clauses.orderSql b.settings) =
      (b.write (order.toSql b.settings)).map (" ORDER BY " ++ ·) := by
    have horder : q.unlimited.clauses.order = some order := h
    rw [Clauses.orderSql, horder]
    cases hitems : order.toSql b.settings with
    | error e => simp [write, hitems, Except.map]
    | ok f => simp [write, hitems, Except.map, Fragment.text_cons_code]
  rw [select, Query.selectSql_eq_unordered rfl, write_append, hitems]
  cases hitems : b.write (order.toSql b.settings) <;> rfl

/-- What stands between a statement for all rows and the clause for one row: SQL Server is told
that there is no order. -/
def noOrder (b : Builder) (q : Query) : String :=
  if b.settings.dialect = .mssql ∧ q.clauses.order = none then " ORDER BY (SELECT NULL)" else ""

/-- Where the dialect is told nothing about the order, one row may be taken. -/
theorem toSql_one_of_noOrder (hdialect : b.settings.dialect ≠ .sybase)
    (h : ¬(b.settings.dialect = .mssql ∧ q.clauses.order = none)) :
    (Limit.count 1).toSql b.settings.dialect q.clauses.order.isSome =
      .ok b.settings.dialect.oneRow := by
  by_cases hmssql : b.settings.dialect = .mssql
  · have hsome : q.clauses.order.isSome = true :=
      Option.isSome_iff_ne_none.2 fun hnone => h ⟨hmssql, hnone⟩
    rw [hsome, Limit.toSql_one hdialect]
  · rw [Limit.toSql_eq_ordered hmssql, Limit.toSql_one hdialect]

/-- The statement for one row is the statement for all rows and the clause for one of them. -/
theorem get_eq_select (hdialect : b.settings.dialect ≠ .sybase) (q : Query) :
    b.get q = (b.select q.unlimited).map fun text =>
      text ++ b.noOrder q ++ b.settings.dialect.oneRow := by
  by_cases h : b.settings.dialect = .mssql ∧ q.clauses.order = none
  · have hget : q.getSql b.settings = (q.unlimited.selectSql b.settings).map fun f =>
        f ++ [.code " ORDER BY (SELECT NULL)"] ++ [.code b.settings.dialect.oneRow] := by
      rw [Query.getSql, if_pos (by simpa using h), Limit.toSql_one hdialect]
      simp only [List.append_assoc]
      rfl
    rw [get, hget, noOrder, if_pos h, select]
    cases q.unlimited.selectSql b.settings with
    | error e => rfl
    | ok f =>
        refine congrArg Except.ok ?_
        rw [Fragment.text_append, Fragment.text_append, Fragment.text_code, Fragment.text_code]
  · have hget : b.get q = b.select (q.withLimit (.count 1)) := by
      rw [get, Query.getSql, if_neg (by simpa using h)]
      rfl
    rw [hget, select_withLimit, toSql_one_of_noOrder hdialect h, noOrder, if_neg h]
    cases b.select q.unlimited with
    | error e => rfl
    | ok text => simp [Except.map, bind, Except.bind, pure, Except.pure]

/-! ## The order before the rows that are taken -/

/-- A text consists of a statement without an order, an order, and a clause at its end. The order
is the one of the query; where the query has none, `default` stands for it. -/
def OrderedBefore (b : Builder) (q : Query) (default : Option String) (clause text : String) :
    Prop :=
  ∃ rest items, b.select q.unlimited.unordered = .ok rest ∧
    text = rest ++ " ORDER BY " ++ items ++ clause ∧
    match q.clauses.order with
    | some order => b.write (order.toSql b.settings) = .ok items
    | none => default = some items

theorem orderedBefore_of_order {order : Order} {text : String}
    (horder : q.clauses.order = some order) (h : b.select q.unlimited = .ok text)
    (default : Option String) (clause : String) :
    b.OrderedBefore q default clause (text ++ clause) := by
  rw [select_unlimited horder] at h
  simp only [Result.do_eq_ok_iff, Result.pure_eq_ok_iff] at h
  obtain ⟨rest, hrest, items, hitems, rfl⟩ := h
  exact ⟨rest, items, hrest, by simp only [String.append_assoc], by rwa [horder]⟩

theorem orderedBefore_of_get (h : b.settings.dialect = .mssql) {text : String}
    (htext : b.get q = .ok text) :
    b.OrderedBefore q (some "(SELECT NULL)") Dialect.mssql.oneRow text := by
  rw [get_eq_select (by rw [h]; decide), h] at htext
  obtain ⟨rest, hrest, rfl⟩ := Result.map_eq_ok_iff.1 htext
  cases horder : q.clauses.order with
  | none =>
      have hunordered : q.unlimited.unordered = q.unlimited := by
        simp [Query.unordered, Query.unlimited, Query.withClauses, Clauses.unordered,
          Clauses.unlimited, horder]
      refine ⟨rest, "(SELECT NULL)", by rwa [hunordered], ?_, by rw [horder]⟩
      rw [noOrder, if_pos ⟨h, horder⟩]
      simp only [String.append_assoc]
      rfl
  | some order =>
      have hnoOrder : b.noOrder q = "" := by simp [noOrder, horder]
      rw [hnoOrder, String.append_empty]
      exact orderedBefore_of_order horder hrest _ _

theorem orderedBefore_of_select (h : b.settings.dialect = .mssql) {limit : Limit} {text : String}
    (htext : b.select (q.withLimit limit) = .ok text) :
    ∃ clause, limit.toSql .mssql true = .ok clause ∧ b.OrderedBefore q none clause text := by
  rw [select_withLimit, h] at htext
  simp only [Result.do_eq_ok_iff, Result.pure_eq_ok_iff] at htext
  obtain ⟨rest, hrest, clause, hclause, rfl⟩ := htext
  cases horder : q.clauses.order with
  | none =>
      rw [horder] at hclause
      cases limit <;> simp [Limit.toSql, Dialect.lacks] at hclause
  | some order =>
      rw [horder] at hclause
      exact ⟨clause, hclause, orderedBefore_of_order horder hrest none clause⟩

/-- The statement for one row succeeds, or fails, with the statement for all rows of the query, and
adds to it the clause for one row. A limit of the query does not matter. SQL Server never gets its
clause without an order before it, neither here nor for a limit of the query. -/
theorem get_takes_one_row (b : Builder) (q : Query) (h : b.settings.dialect ≠ .sybase) :
    (Limit.count 1).toSql b.settings.dialect true = .ok b.settings.dialect.oneRow ∧
      (b.get q = (b.select q.unlimited).map fun text =>
        text ++
          (if b.settings.dialect = .mssql ∧ q.clauses.order = none then
            " ORDER BY (SELECT NULL)" else "") ++
          b.settings.dialect.oneRow) ∧
      (∀ limit, b.get { q with clauses := { q.clauses with limit } } = b.get q) ∧
      (b.settings.dialect = .mssql → ∀ text,
        (b.get q = .ok text →
          b.OrderedBefore q (some "(SELECT NULL)") Dialect.mssql.oneRow text) ∧
        ∀ limit, b.select (q.withLimit limit) = .ok text →
          ∃ clause, limit.toSql .mssql true = .ok clause ∧
            b.OrderedBefore q none clause text) := by
  refine ⟨Limit.toSql_one h, get_eq_select h q, fun limit => ?_, fun hmssql text => ?_⟩
  · rw [get_eq_select h, get_eq_select h]
    rfl
  · exact ⟨orderedBefore_of_get hmssql, fun limit => orderedBefore_of_select hmssql⟩

/-- A query of SQL Server with a limit and without an order. -/
theorem get_takes_one_row_mssql :
    let b : Builder := ⟨⟨.mssql, .bracket, "p_"⟩, by decide⟩
    let q : Query :=
      { table := "t", clauses := { group := ["a"], limit := some (.range 4 9) } }
    b.settings.dialect ≠ .sybase ∧
      b.select q.unlimited = .ok "SELECT * FROM [p_t] GROUP BY [a]" ∧
      b.get q = .ok ("SELECT * FROM [p_t] GROUP BY [a] ORDER BY (SELECT NULL)" ++
        " OFFSET 0 ROWS FETCH NEXT 1 ROWS ONLY") ∧
      b.OrderedBefore q (some "(SELECT NULL)") " OFFSET 0 ROWS FETCH NEXT 1 ROWS ONLY"
        ("SELECT * FROM [p_t] GROUP BY [a] ORDER BY (SELECT NULL)" ++
          " OFFSET 0 ROWS FETCH NEXT 1 ROWS ONLY") := by
  intro b q
  have hdialect : b.settings.dialect ≠ .sybase := by decide
  have hselect : b.select q.unlimited = .ok "SELECT * FROM [p_t] GROUP BY [a]" := by
    decide +kernel
  obtain ⟨-, heq, -, hfetch⟩ := get_takes_one_row b q hdialect
  have hget : b.get q = .ok ("SELECT * FROM [p_t] GROUP BY [a] ORDER BY (SELECT NULL)" ++
      " OFFSET 0 ROWS FETCH NEXT 1 ROWS ONLY") := by
    rw [heq, hselect]
    decide +kernel
  exact ⟨hdialect, hselect, hget, (hfetch rfl _).1 hget⟩

end Builder

end KeyedQuery
