import KeyedQuery.Proofs.Payload.Statement
import KeyedQuery.Proofs.Soundness.Write

/-!
# Payloads do not interfere

A request is a call of a builder. Two requests that differ in nothing but their payloads fail with
one error, or their statements have one skeleton: what is left of a text once its string literals
are emptied. So no payload ever reaches a statement as anything but the content of a string literal.
-/

namespace KeyedQuery

open Sql

/-- What is left of a text when its string literals, as the dialect reads them, are emptied. -/
def Sql.skeleton (s : Settings) (text : String) : List Lexeme :=
  (scan s text.toList).map Lexeme.blank

theorem Fragment.Sound.skeleton_text {s : Settings} {f : Fragment} (h : Sound s f) :
    skeleton s (f.text s) = f.blank.lexemes := by
  rw [skeleton, toList_text, scan_chars h, lexemes_blank]

/-- A call of a builder. A request is data, which can be masked and whose names and calls can be
listed, so that statements about all operations are statements about one type. -/
inductive Request where
  | select (q : Query)
  | get (q : Query)
  | has (q : Query)
  | aggregate (a : Aggregate) (q : Query)
  | insert (i : Insertion)
  | multiInsert (i : Insertion)
  | update (u : Update)
  | replace (table : String) (substitutions : List Substitution) (clauses : Clauses)
  | delete (d : Deletion)

namespace Request

def run (b : Builder) : Request → Result (List String)
  | select q => (b.select q).map fun t => [t]
  | get q => (b.get q).map fun t => [t]
  | has q => (b.has q).map fun t => [t]
  | aggregate a q => (b.aggregate a q).map fun t => [t]
  | insert i => b.insert i
  | multiInsert i => (b.multiInsert i).map fun t => [t]
  | update u => (b.update u).map fun t => [t]
  | replace table substitutions clauses =>
      (b.replace table substitutions clauses).map fun t => [t]
  | delete d => (b.delete d).map fun t => [t]

/-- The fragments of the statements that answer a request. -/
def fragments (s : Settings) : Request → Result (List Fragment)
  | select q => (q.selectSql s).map fun f => [f]
  | get q => (q.getSql s).map fun f => [f]
  | has q => (q.hasSql s).map fun f => [f]
  | aggregate a q => (q.aggregateSql s a).map fun f => [f]
  | insert i => i.eachSql s
  | multiInsert i => (i.togetherSql s).map fun f => [f]
  | update u => (u.toSql s).map fun f => [f]
  | replace table substitutions clauses =>
      (Substitution.toSql s table substitutions clauses).map fun f => [f]
  | delete d => (d.toSql s).map fun f => [f]

/-- The names that a request holds: tables, labels, columns and the keys of rows. The columns in the
keys of conditions and of assignments are not among them, since no mark is admitted there. -/
def names : Request → List String
  | select q => q.names
  | get q => q.names
  | has q => q.names
  | aggregate _ q => q.names
  | insert i => i.names
  | multiInsert i => i.names
  | update u => u.names
  | replace table substitutions clauses => Substitution.names table substitutions clauses
  | delete d => d.names

/-- The calls that the raw keys of a request let through. -/
def calls : Request → List String
  | select q => q.clauses.calls
  | get q => q.clauses.calls
  | has q => q.clauses.calls
  | aggregate _ q => q.clauses.calls
  | insert i => i.calls
  | multiInsert i => i.calls
  | update u => u.calls
  | replace _ _ clauses => clauses.calls
  | delete d => d.clauses.calls

def mask : Request → Request
  | select q => select q.mask
  | get q => get q.mask
  | has q => has q.mask
  | aggregate a q => aggregate a q.mask
  | insert i => insert i.mask
  | multiInsert i => multiInsert i.mask
  | update u => update u.mask
  | replace table substitutions clauses =>
      replace table (substitutions.map Substitution.mask) clauses.mask
  | delete d => delete d.mask

variable {b : Builder} {s : Settings} {r r' : Request}

theorem run_eq : r.run b =
    (r.fragments b.settings).map (List.map (Fragment.text b.settings)) := by
  have hwrite : ∀ x : Result Fragment, (b.write x).map (fun t => [t]) =
      (x.map fun f => [f]).map (List.map (Fragment.text b.settings)) := by
    intro x
    cases x <;> rfl
  cases r with
  | insert i => rfl
  | select q => exact hwrite _
  | get q => exact hwrite _
  | has q => exact hwrite _
  | aggregate a q => exact hwrite _
  | multiInsert i => exact hwrite _
  | update u => exact hwrite _
  | replace table substitutions clauses => exact hwrite _
  | delete d => exact hwrite _

theorem map_blank_fragments : (r.mask.fragments s).map (List.map Fragment.blank) =
    (r.fragments s).map (List.map Fragment.blank) := by
  have hsingle : ∀ x y : Result Fragment, x.map Fragment.blank = y.map Fragment.blank →
      (x.map fun f => [f]).map (List.map Fragment.blank) =
        (y.map fun f => [f]).map (List.map Fragment.blank) :=
    fun _ _ h => Result.map_map_congr h fun _ _ hfg => congrArg (fun f => [f]) hfg
  cases r with
  | select q => exact hsingle _ _ (q.map_blank_selectSql s)
  | get q => exact hsingle _ _ (q.map_blank_getSql s)
  | has q => exact hsingle _ _ (q.map_blank_hasSql s)
  | aggregate a q => exact hsingle _ _ (q.map_blank_aggregateSql s a)
  | insert i => exact i.map_blank_eachSql s
  | multiInsert i => exact hsingle _ _ (i.map_blank_togetherSql s)
  | update u => exact hsingle _ _ (u.map_blank_toSql s)
  | replace table substitutions clauses =>
      exact hsingle _ _ (Substitution.map_blank_toSql s table substitutions clauses)
  | delete d => exact hsingle _ _ (d.map_blank_toSql s)

theorem sound_fragments (h : s.Admits r.names r.calls) {fragments : List Fragment}
    (hf : r.fragments s = .ok fragments) : ∀ f ∈ fragments, Fragment.Sound s f := by
  have hsingle : ∀ {x : Result Fragment}, (x.map fun f => [f]) = .ok fragments →
      (∀ f, x = .ok f → Fragment.Sound s f) → ∀ f ∈ fragments, Fragment.Sound s f := by
    intro x hx hsound
    obtain ⟨f, hxf, rfl⟩ := Result.map_eq_ok_iff.1 hx
    simpa using hsound f hxf
  cases r with
  | select q => exact hsingle hf fun f => Query.sound_selectSql h
  | get q => exact hsingle hf fun f => Query.sound_getSql h
  | has q => exact hsingle hf fun f => Query.sound_hasSql h
  | aggregate a q =>
      exact hsingle hf fun f => Query.sound_selectSql (q := q.withReduction (.aggregate a)) h
  | insert i => exact Insertion.sound_eachSql h hf
  | multiInsert i => exact hsingle hf fun f => Insertion.sound_togetherSql h
  | update u => exact hsingle hf fun f => Update.sound_toSql h
  | replace table substitutions clauses => exact hsingle hf fun f => Substitution.sound_toSql h
  | delete d => exact hsingle hf fun f => Deletion.sound_toSql h

/-- The skeletons of the statements of a request are the lexemes of its blanked fragments. -/
theorem map_skeleton_run (h : b.settings.Admits r.names r.calls) :
    (r.run b).map (List.map (skeleton b.settings)) =
      ((r.fragments b.settings).map (List.map Fragment.blank)).map
        (List.map Fragment.lexemes) := by
  rw [run_eq]
  cases hfragments : r.fragments b.settings with
  | error e => rfl
  | ok fragments =>
      refine congrArg Except.ok ?_
      rw [List.map_map, List.map_map]
      exact List.map_congr_left fun f hf =>
        (sound_fragments h hfragments f hf).skeleton_text

/-- Two requests that differ in nothing but their payloads are refused with one error, or answered
with statements of one skeleton. -/
theorem map_skeleton_run_congr (h : r.mask = r'.mask) (hr : b.settings.Admits r.names r.calls)
    (hr' : b.settings.Admits r'.names r'.calls) :
    (r.run b).map (List.map (skeleton b.settings)) =
      (r'.run b).map (List.map (skeleton b.settings)) := by
  rw [map_skeleton_run hr, map_skeleton_run hr', ← map_blank_fragments, h, map_blank_fragments]

/-- An update of a user that lets the call of a raw key through beside three payloads. -/
def ofUser (name term item : String) : Request :=
  .update {
    table := "users"
    assignments := Record.ofList [("name", .text name), ("#seen", .text "NOW()")]
    clauses := { conditions := [("OR", .group [("#bio[~]", .value (.text term)),
      ("id", .value (.list [.int 1, .text item]))])] } }

theorem map_skeleton_run_ofUser :
    ((ofUser "O'Hara" "' OR 1=1 --" "a").run ⟨⟨.mysql, .backtick, "p_"⟩, by decide⟩).toOption =
      some ["UPDATE `p_users` SET `name` = 'O''Hara', `seen` = NOW() WHERE " ++
        "`bio` LIKE '%'' OR 1=1 --%' OR `id` IN (1,'a')"] ∧
    ((ofUser "O'Hara" "' OR 1=1 --" "a").run ⟨⟨.mysql, .backtick, "p_"⟩, by decide⟩).map
        (List.map (skeleton ⟨.mysql, .backtick, "p_"⟩)) =
      ((ofUser "\\" "" "b").run ⟨⟨.mysql, .backtick, "p_"⟩, by decide⟩).map
        (List.map (skeleton ⟨.mysql, .backtick, "p_"⟩)) :=
  ⟨by decide +kernel, map_skeleton_run_congr (b := ⟨⟨.mysql, .backtick, "p_"⟩, by decide⟩) rfl
    ⟨by decide, by decide, by decide⟩ ⟨by decide, by decide, by decide⟩⟩

end Request

end KeyedQuery
