import KeyedQuery.Proofs.Clause.Filter
import KeyedQuery.Proofs.Soundness.Query
import KeyedQuery.Proofs.Sql.Balance

/-!
# Labels and aggregates in a projection

A server reads the projection of a statement between the words `SELECT` and `FROM`. On its way it
knows which parentheses are open and which of them belong to an aggregate, so it can be said at
every word `AS` where the label behind it stands. The label of a column stands behind the aggregate
of the column. An aggregate of the whole projection takes the labels in.
-/

namespace KeyedQuery

open Sql

namespace Sql

def Token.isWord (word : List Char) : Token → Bool
  | other text => Text.sameLetterChars text word
  | _ => false

def Token.aggregate? : Token → Option Aggregate
  | .other word => Aggregate.read? (String.ofList word)
  | _ => none

/-- Where a reader of tokens stands: behind a token, and inside parentheses, the innermost one
first, each with the aggregate that it belongs to. -/
structure Cursor where
  previous : Option Token
  opened : List (Option Aggregate)

namespace Cursor

def start : Cursor := ⟨none, []⟩

def step (p : Cursor) (t : Token) : Cursor where
  previous := some t
  opened :=
    if t = .mark '(' then p.previous.bind Token.aggregate? :: p.opened
    else if t = .mark ')' then p.opened.tail
    else p.opened

def after (p : Cursor) (ts : List Token) : Cursor := ts.foldl step p

/-- The parentheses that are open at every word `AS`. -/
def labels (p : Cursor) : List Token → List (List (Option Aggregate))
  | [] => []
  | t :: ts => (if t.isWord ['A', 'S'] then [p.opened] else []) ++ labels (p.step t) ts

variable {p : Cursor}

theorem opened_step_opening (p : Cursor) :
    (p.step (.mark '(')).opened = p.previous.bind Token.aggregate? :: p.opened := by
  rw [step, if_pos rfl]

theorem opened_step_closing (p : Cursor) : (p.step (.mark ')')).opened = p.opened.tail := by
  rw [step, if_neg (by decide), if_pos rfl]

theorem opened_step_of_ne {t : Token} (hopen : t ≠ .mark '(') (hclose : t ≠ .mark ')') :
    (p.step t).opened = p.opened := by
  rw [step, if_neg hopen, if_neg hclose]

theorem after_append (p : Cursor) (ts us : List Token) :
    p.after (ts ++ us) = (p.after ts).after us :=
  List.foldl_append

theorem labels_append (p : Cursor) (ts us : List Token) :
    p.labels (ts ++ us) = p.labels ts ++ (p.after ts).labels us := by
  induction ts generalizing p with
  | nil => rfl
  | cons t ts ih =>
      rw [List.cons_append, labels, labels, ih, List.append_assoc]
      rfl

end Cursor

/-- The tokens of the projection of a statement. -/
def projectionTokens (s : Settings) (sql : String) : List Token :=
  ((tokens (scan s sql.toList)).drop 1).takeWhile fun t => !t.isWord ['F', 'R', 'O', 'M']

def projectionLabels (s : Settings) (sql : String) : List (List (Option Aggregate)) :=
  Cursor.start.labels (projectionTokens s sql)

/-- Every label in the projection of a statement stands outside the parentheses of aggregates, at
the level of the items of the projection. -/
def LabelsOutside (s : Settings) (sql : String) : Prop :=
  ∀ opened ∈ projectionLabels s sql, (∀ a, some a ∉ opened) ∧ opened = []

end Sql

/-! ## Fragments of a projection -/

theorem Identifier.mem_tokens {i : Identifier} {t : Token} (h : t ∈ i.tokens) :
    t = .mark '.' ∨ ∃ part : Part, t = part.token := by
  induction i with
  | nil => cases h
  | cons part i ih =>
      cases i with
      | nil => exact .inr ⟨part, List.mem_singleton.1 h⟩
      | cons next i =>
          rw [tokens_cons_cons, List.mem_cons, List.mem_cons] at h
          rcases h with rfl | rfl | h
          · exact .inr ⟨part, rfl⟩
          · exact .inl rfl
          · exact ih h

/-- The fragment has `n` labels, all of them outside the parentheses of the fragment. It closes what
it opens, and it does not end the projection. -/
structure Fragment.HasLabels (n : Nat) (f : Fragment) : Prop where
  labels (p : Cursor) : p.labels f.tokens = List.replicate n p.opened
  opened (p : Cursor) : (p.after f.tokens).opened = p.opened
  inside : ∀ t ∈ f.tokens, t.isWord ['F', 'R', 'O', 'M'] = false

namespace Fragment

theorem unclosed_not_mem_lexemes (f : Fragment) (rest : List Char) :
    .unclosed rest ∉ f.lexemes := by
  intro hmem
  obtain ⟨p, -, hp⟩ := List.mem_flatMap.1 hmem
  cases p <;> simp [Piece.lexemes] at hp

variable {f g : Fragment} {m n : Nat} {text : String}

theorem hasLabels_of_tokens (h : ∀ t ∈ f.tokens,
    t.isWord ['A', 'S'] = false ∧ t.isWord ['F', 'R', 'O', 'M'] = false ∧
      t ≠ .mark '(' ∧ t ≠ .mark ')') : HasLabels 0 f := by
  have hcursor (p : Cursor) : p.labels f.tokens = [] ∧ (p.after f.tokens).opened = p.opened := by
    generalize f.tokens = ts at h
    induction ts generalizing p with
    | nil => exact ⟨rfl, rfl⟩
    | cons t ts ih =>
        obtain ⟨⟨has, -, hopen, hclose⟩, hts⟩ := List.forall_mem_cons.1 h
        have hstep := Cursor.opened_step_of_ne (p := p) hopen hclose
        obtain ⟨hlabels, hopened⟩ := ih (p.step t) hts
        refine ⟨?_, hopened.trans hstep⟩
        rw [Cursor.labels, hlabels, has]
        rfl
  exact ⟨fun p => (hcursor p).1, fun p => (hcursor p).2, fun t ht => (h t ht).2.1⟩

theorem hasLabels_name (text : String) : HasLabels 0 [.name text] :=
  hasLabels_of_tokens (by simp [Token.isWord])

theorem hasLabels_column (s : Settings) (name : String) : HasLabels 0 (s.column name) := by
  have htokens : (s.column name).tokens = (Identifier.ofColumn name s.tablePrefix).tokens := by
    have hne := Identifier.ofColumn_ne_nil name s.tablePrefix
    have happend := Identifier.tokens_toSql_append hne []
    rwa [List.append_nil, tokens_nil, List.append_nil] at happend
  refine hasLabels_of_tokens fun t ht => ?_
  rw [htokens] at ht
  rcases Identifier.mem_tokens ht with rfl | ⟨part, rfl⟩
  · decide
  · cases part <;> simp [Identifier.Part.token, Token.isWord]

theorem HasLabels.append_code {k : Nat} (hf : HasLabels m f) (hcode : HasLabels k [.code text])
    (hseparates : separates text = true) (hg : HasLabels n g) :
    HasLabels (m + k + n) (f ++ .code text :: g) := by
  have htokens := tokens_append_code hseparates f g
  refine ⟨fun p => ?_, fun p => ?_, ?_⟩
  · rw [htokens, Cursor.labels_append, Cursor.labels_append, hf.labels, hcode.labels, hg.labels,
      hcode.opened, hf.opened, List.replicate_append_replicate, List.replicate_append_replicate,
      Nat.add_assoc]
  · rw [htokens, Cursor.after_append, Cursor.after_append, hg.opened, hcode.opened, hf.opened]
  · rw [htokens]
    simp only [List.forall_mem_append]
    exact ⟨hf.inside, hcode.inside, hg.inside⟩

/-- A label behind a fragment. -/
theorem HasLabels.labelled (hf : HasLabels n f) (label : String) :
    HasLabels (n + 1) (f.labelled [.name label]) := by
  have has : HasLabels 1 [.code " AS "] := ⟨fun p => rfl, fun p => rfl, by decide⟩
  exact hf.append_code has (by decide) (hasLabels_name label)

/-- An aggregate takes the labels of a fragment into its parentheses. -/
theorem HasLabels.of_apply (hf : HasLabels n f) (a : Aggregate) (p : Cursor) :
    p.labels (a.apply f).tokens = List.replicate n (some a :: p.opened) ∧
      (p.after (a.apply f).tokens).opened = p.opened ∧
      ∀ t ∈ (a.apply f).tokens, t.isWord ['F', 'R', 'O', 'M'] = false := by
  have hopen : tokens [.code s!"{a.name}("] = [.other a.name.toList, .mark '('] := by
    cases a <;> rfl
  have htokens : (a.apply f).tokens =
      [.other a.name.toList, .mark '('] ++ (f.tokens ++ [.mark ')']) := by
    rw [Aggregate.apply, List.cons_append, tokens_cons_code (by cases a <;> decide), hopen,
      tokens_append_code (by decide)]
    rfl
  have hname : (Token.other a.name.toList).isWord ['A', 'S'] = false ∧
      (Token.other a.name.toList).isWord ['F', 'R', 'O', 'M'] = false := by
    cases a <;> decide
  have hread : (Token.other a.name.toList).aggregate? = some a := by
    cases a <;> decide
  have hcursor : (p.after [.other a.name.toList, .mark '(']).opened = some a :: p.opened := by
    have hprevious : (p.step (.other a.name.toList)).previous = some (.other a.name.toList) := rfl
    change ((p.step _).step _).opened = _
    rw [Cursor.opened_step_opening, hprevious, Option.bind_some, hread,
      Cursor.opened_step_of_ne (by simp) (by simp)]
  refine ⟨?_, ?_, ?_⟩
  · have hhead : p.labels [.other a.name.toList, .mark '('] = [] := by
      rw [Cursor.labels, hname.1]
      rfl
    rw [htokens, Cursor.labels_append, Cursor.labels_append, hf.labels, hcursor, hhead]
    exact List.append_nil _
  · rw [htokens, Cursor.after_append, Cursor.after_append]
    change (Cursor.step _ _).opened = p.opened
    rw [Cursor.opened_step_closing, hf.opened, hcursor, List.tail_cons]
  · rw [htokens]
    simp only [List.forall_mem_append, List.forall_mem_cons]
    exact ⟨⟨hname.2, rfl, by simp⟩, hf.inside, rfl, by simp⟩

theorem HasLabels.apply (hf : HasLabels 0 f) (a : Aggregate) : HasLabels 0 (a.apply f) :=
  ⟨fun p => (hf.of_apply a p).1, fun p => (hf.of_apply a p).2.1, (hf.of_apply a .start).2.2⟩

theorem HasLabels.join {α : Type} {write : α → Fragment} {labels : α → List String}
    {items : List α} (h : ∀ x ∈ items, (write x).HasLabels (labels x).length) :
    (join "," (items.map write)).HasLabels (items.flatMap labels).length := by
  have hcomma : HasLabels 0 [.code ","] := hasLabels_of_tokens (by decide)
  induction items with
  | nil => exact hasLabels_of_tokens (by simp)
  | cons x items ih =>
      obtain ⟨hx, hitems⟩ := List.forall_mem_cons.1 h
      cases items with
      | nil => simpa using hx
      | cons y items =>
          change HasLabels _ (Fragment.join "," (write x :: write y :: items.map write))
          rw [join_cons_cons, List.flatMap_cons, List.length_append]
          exact hx.append_code hcomma (by decide) (ih hitems)

end Fragment

/-! ## Projections -/

def Projection.labels : Projection → List String
  | all => []
  | columns list => list.flatMap fun c => c.label.toList

theorem Column.hasLabels_toSql (s : Settings) (c : Column) :
    (c.toSql s).HasLabels c.label.toList.length := by
  have hexpression : (c.expression s).HasLabels 0 := by
    unfold expression
    split
    · next a _ => exact (Fragment.hasLabels_column s c.name).apply a
    · exact Fragment.hasLabels_column s c.name
  unfold toSql
  cases c.label with
  | none => exact hexpression
  | some label => exact hexpression.labelled label

theorem Projection.hasLabels_toSql {s : Settings} {p : Projection} {f : Fragment}
    (h : p.toSql s = .ok f) : f.HasLabels p.labels.length := by
  unfold toSql at h
  split at h
  · rw [← Except.ok.inj h]
    exact Fragment.hasLabels_of_tokens (by decide)
  · simp [fault] at h
  · rw [← Except.ok.inj h]
    exact Fragment.HasLabels.join fun c _ => c.hasLabels_toSql s

/-! ## Statements -/

namespace Query

variable {s : Settings} {q : Query} {f : Fragment}

/-- The parentheses around the labels of a projection: those of the aggregate of the whole. -/
def labelPlaces (q : Query) : List (List (Option Aggregate)) :=
  match q.reduction with
  | none => q.projection.labels.map fun _ => []
  | some (.aggregate a) => q.projection.labels.map fun _ => [some a]
  | some .existence => []

theorem labels_projectionSql (h : q.projectionSql s = .ok f) :
    Cursor.start.labels f.tokens = q.labelPlaces ∧
      ∀ t ∈ f.tokens, t.isWord ['F', 'R', 'O', 'M'] = false := by
  unfold projectionSql at h
  unfold labelPlaces
  split at h
  · next hreduction =>
      rw [← Except.ok.inj h, hreduction]
      exact ⟨rfl, by decide⟩
  · next a hreduction =>
      obtain ⟨g, hg, rfl⟩ := Result.map_eq_ok_iff.1 h
      obtain ⟨hlabels, -, hinside⟩ := (Projection.hasLabels_toSql hg).of_apply a .start
      rw [hreduction]
      exact ⟨hlabels.trans List.map_const'.symm, hinside⟩
  · next hreduction =>
      have hlabels := Projection.hasLabels_toSql h
      rw [hreduction]
      exact ⟨(hlabels.labels .start).trans List.map_const'.symm, hlabels.inside⟩

/-- The projection is read in front of the word `FROM`, whatever comes behind it. -/
theorem projectionTokens_of_sound (hsound : Fragment.Sound s f)
    (hinside : ∀ t ∈ f.tokens, t.isWord ['F', 'R', 'O', 'M'] = false) (rest : Fragment) :
    projectionTokens s (Fragment.text s (.code "SELECT " :: f ++ .code " FROM " :: rest)) =
      f.tokens := by
  have hfrom : s.Plain " FROM ".toList := (s.plain_of_isCode (by decide)).2
  have hclosed : ∀ r, .unclosed r ∉ scan s (f.chars s) := by
    intro r
    rw [Fragment.scan_chars hsound]
    exact f.unclosed_not_mem_lexemes r
  have hscan : scan s
      (Fragment.text s (.code "SELECT " :: f ++ .code " FROM " :: rest)).toList =
        "SELECT ".toList.map .char ++
          (f.lexemes ++ (" FROM ".toList.map .char ++ scan s (rest.chars s))) := by
    rw [Fragment.toList_text, List.cons_append, Fragment.chars_cons, Fragment.chars_append,
      Fragment.chars_cons, Piece.chars, Piece.chars,
      scan_append_of_plain (s.plain_of_isCode (by decide)).2,
      scan_append_of_closed (hfrom.stops (by decide) _) hclosed, Fragment.scan_chars hsound,
      scan_append_of_plain hfrom]
  have hselect : tokens ("SELECT ".toList.map .char) = [.other ['S', 'E', 'L', 'E', 'C', 'T']] := by
    rfl
  have hword : tokens (" FROM ".toList.map .char) = [.other ['F', 'R', 'O', 'M']] := by
    rfl
  rw [projectionTokens, hscan, tokens_append_of_isGap (.inl (by decide)), hselect,
    tokens_append_of_isGap (.inr (by rfl)), tokens_append_of_isGap (.inl (by decide)), hword,
    List.singleton_append, List.singleton_append, List.drop_one, List.tail_cons,
    List.takeWhile_append_of_pos fun t ht => by rw [hinside t ht]; rfl,
    List.takeWhile_cons_of_neg (by decide), List.append_nil]
  rfl

end Query

namespace Builder

variable {b : Builder} {q : Query} {sql : String}

/-- The labels of a statement stand where the reduction of the query puts them. -/
theorem projectionLabels_of_select (h : b.settings.Admits q.projection.names [])
    (hsql : b.select q = .ok sql) : projectionLabels b.settings sql = q.labelPlaces := by
  obtain ⟨f, hf, rfl⟩ := exists_of_write hsql
  simp only [Query.selectSql, Result.do_eq_ok_iff, Result.pure_eq_ok_iff] at hf
  obtain ⟨main, -, projection, hprojection, joins, -, clauses, -, rfl⟩ := hf
  obtain ⟨hlabels, hinside⟩ := Query.labels_projectionSql hprojection
  have hsound := Query.sound_projectionSql h hprojection
  have htokens := Query.projectionTokens_of_sound hsound hinside
    (main.expression ++ joins.flatten ++ clauses)
  rw [projectionLabels, ← hlabels, ← htokens]
  simp only [List.cons_append, List.append_assoc]

theorem labelsOutside_iff (h : projectionLabels b.settings sql = q.labelPlaces) :
    LabelsOutside b.settings sql ↔
      q.projection.labels = [] ∨ ∀ a, q.reduction ≠ some (.aggregate a) := by
  rw [LabelsOutside, h, Query.labelPlaces]
  cases hreduction : q.reduction with
  | none => simp
  | some r =>
      cases r with
      | existence => simp
      | aggregate a => cases q.projection.labels <;> simp

/-- Every label in a projection stands behind the aggregate of its column, and outside of all
parentheses. Only an aggregate of the whole projection has the labels in its parentheses, and it
has all of them. -/
theorem labels_stand_outside_iff (b : Builder) (q : Query)
    (h : b.settings.Admits q.projection.names []) :
    (∀ sql, b.select q = .ok sql →
        projectionLabels b.settings sql = q.labelPlaces ∧
          (LabelsOutside b.settings sql ↔
            q.projection.labels = [] ∨ ∀ a, q.reduction ≠ some (.aggregate a))) ∧
      ∀ a sql, b.aggregate a q = .ok sql →
        projectionLabels b.settings sql = q.projection.labels.map (fun _ => [some a]) ∧
          (LabelsOutside b.settings sql ↔ q.projection.labels = []) := by
  refine ⟨fun sql hsql => ?_, fun a sql hsql => ?_⟩
  · have hlabels := projectionLabels_of_select h hsql
    exact ⟨hlabels, labelsOutside_iff hlabels⟩
  · have hlabels : projectionLabels b.settings sql =
        (q.withReduction (.aggregate a)).labelPlaces := projectionLabels_of_select h hsql
    refine ⟨hlabels, (labelsOutside_iff hlabels).trans ⟨fun hor => ?_, .inl⟩⟩
    exact hor.resolve_right fun hnone => hnone a rfl

/-- A projection with a label behind an aggregate, selected and counted. -/
theorem labels_stand_outside_iff_of_two_columns :
    let b : Builder := ⟨⟨.mysql, .backtick, "p_"⟩, by decide⟩
    let q : Query :=
      { table := "t"
        projection := .columns
          [{ name := "t.a" }, { name := "b", label := some "from", aggregate := some .max }] }
    let selected := "SELECT \x60p_t\x60.\x60a\x60,MAX(\x60b\x60) AS \x60from\x60 FROM \x60p_t\x60"
    let counted :=
      "SELECT COUNT(\x60p_t\x60.\x60a\x60,MAX(\x60b\x60) AS \x60from\x60) FROM \x60p_t\x60"
    b.settings.Admits q.projection.names [] ∧
      b.select q = .ok selected ∧ LabelsOutside b.settings selected ∧
      b.aggregate .count q = .ok counted ∧
      projectionLabels b.settings counted = [[some .count]] := by
  intro b q selected counted
  have h : b.settings.Admits q.projection.names [] := ⟨by decide, by decide, by decide⟩
  have hselected : b.select q = .ok selected := by decide +kernel
  have hcounted : b.aggregate .count q = .ok counted := by decide +kernel
  obtain ⟨hselect, haggregate⟩ := labels_stand_outside_iff b q h
  refine ⟨h, hselected, (hselect _ hselected).2.2 (.inr ?_), hcounted,
    (haggregate _ _ hcounted).1⟩
  exact fun a ha => by cases ha

/-- The label of a column that is counted stands inside the parentheses of the aggregate. -/
theorem label_stands_in_count :
    let b : Builder := ⟨⟨.postgres, .ansi, ""⟩, by decide⟩
    let q : Query :=
      { table := "t", projection := .columns [{ name := "a", label := some "b" }] }
    let sql := "SELECT COUNT(\"a\" AS \"b\") FROM \"t\""
    b.aggregate .count q = .ok sql ∧ projectionLabels b.settings sql = [[some .count]] ∧
      ¬LabelsOutside b.settings sql := by
  intro b q sql
  have hsql : b.aggregate .count q = .ok sql := by decide +kernel
  have hlabels : projectionLabels b.settings sql = [[some .count]] :=
    projectionLabels_of_select (q := q.withReduction (.aggregate .count))
      ⟨by decide, by decide, by decide⟩ hsql
  refine ⟨hsql, hlabels, fun houtside => ?_⟩
  rw [LabelsOutside, hlabels] at houtside
  exact (houtside _ List.mem_cons_self).1 .count List.mem_cons_self

end Builder

end KeyedQuery
