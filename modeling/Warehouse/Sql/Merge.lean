/-
Module: Warehouse.Sql.Merge
Purpose: Merging the rows of a query into a table: rows that agree on the key columns are updated,
  the others inserted. A dialect with a `MERGE` statement says this in one go. Elsewhere an update
  from the joined source comes first and an insert of the rows that match nothing after it, in one
  transaction if asked for; since the update leaves the keys alone, the insert finds the same rows
  unmatched.
Trusted boundary: none
Main exports: Merge, Merge.updatable, JoinedUpdate, Merge.fallbackUpdate, Merge.fallbackInsert,
  Merge.sql
-/
import Warehouse.Sql.RowChange

namespace Warehouse.Sql

open Token (space newline)

/-- A merge of `source` into `target`. -/
structure Merge where
  target : ObjectName
  source : Plan
  keys : List String
  updateColumns : List String
  insertColumns : List String
  transactional : Bool

/-- An update of the columns `columns` from the row of `source` that agrees on `keys`. -/
structure JoinedUpdate where
  target : ObjectName
  source : Plan
  keys : List String
  columns : List String

/-- The alias of the table that is merged into. -/
def targetAlias : String := "tgt"

/-- The alias of the query that is merged. -/
def sourceAlias : String := "src"

/-- A column of the merged query. -/
def sourceColumn (name : String) : Expr := .colOf sourceAlias name

/-- That target and source agree on every key, where `target` says how a column of the target is
named. -/
def keyPredicate? (target : String → Expr) (keys : List String) : Option Expr :=
  Expr.andAll (keys.map fun k => (target k).eq (sourceColumn k))

/-- The assignments that take columns over from the merged query. -/
def fromSource (columns : List String) : List (String × Expr) :=
  columns.map fun c => (c, sourceColumn c)

namespace JoinedUpdate

/-- The name that qualifies the target's columns: its alias in a style that gives it one. -/
def targetName (s : JoinedUpdate) : UpdateStyle → ObjectName
  | .fromClause | .unsupported => s.target
  | .joinClause | .aliasedFrom => ⟨none, targetAlias⟩

/-- That target and source agree on every key. -/
def predicate? (style : UpdateStyle) (s : JoinedUpdate) : Option Expr :=
  keyPredicate? (.column (some (s.targetName style))) s.keys

/-- The tokens of an update from a joined source, in the dialect's style. -/
def tokens (d : Dialect) (s : JoinedUpdate) : Except SqlError (List Token) :=
  let onKeys : Except SqlError Expr :=
    match s.predicate? d.updateStyle with
    | some predicate => .ok predicate
    | none => .error (.mergeWithoutKeys s.target.display)
  let source := Source.subquery s.source sourceAlias
  let join : List Token := newline :: phrase [.inner, .join] ++ [space]
  let on : List Token := [space, word .on, space]
  match d.updateStyle with
  | .fromClause => do
    let predicate ← onKeys
    let sets ← assignmentTokens d (fromSource s.columns)
    let source ← source.tokens d
    let predicate ← predicate.tokens d
    return [word .update, space, s.target.token, newline, word .set, space] ++
      commaSeparated sets ++
      [newline, word .from, space] ++ source ++ [newline, word .where, space] ++ predicate
  | .joinClause => do
    let predicate ← onKeys
    let sets := s.columns.map fun c =>
      [Token.qualified none targetAlias, sign .dot, .name c, space, sign .eq, space,
       Token.qualified none sourceAlias, sign .dot, .name c]
    let source ← source.tokens d
    let predicate ← predicate.tokens d
    return [word .update, space, s.target.token] ++ d.aliasTokens targetAlias ++ join ++ source ++
      on ++ predicate ++ [newline, word .set, space] ++ commaSeparated sets
  | .aliasedFrom => do
    let predicate ← onKeys
    let sets ← assignmentTokens d (fromSource s.columns)
    let source ← source.tokens d
    let predicate ← predicate.tokens d
    let target : TableRef := ⟨s.target, some targetAlias⟩
    return [word .update, space, .name targetAlias, newline, word .set, space] ++
      commaSeparated sets ++
      [newline, word .from, space] ++ target.tokens d ++ join ++ source ++ on ++ predicate
  | .unsupported => .error (.unsupported d .updateFromJoin)

end JoinedUpdate

namespace Merge

/-- The columns that a match overwrites: the update columns that are no keys. -/
def updatable (m : Merge) : List String := m.updateColumns.filter fun c => ! m.keys.contains c

/-- The update that the fallback starts with. -/
def fallbackUpdate (m : Merge) : JoinedUpdate := ⟨m.target, m.source, m.keys, m.updatable⟩

/-- That target, under its alias, and source agree on every key. -/
def predicate? (m : Merge) : Option Expr := keyPredicate? (.colOf targetAlias) m.keys

/-- The values of a row that is inserted, column by column. -/
def insertValues (m : Merge) : List Expr := m.insertColumns.map sourceColumn

/-- The target rows that agree with a source row on every key. -/
def matchingRows (m : Merge) : Select :=
  { distinct := false
    items := [⟨.literal (.int 1), none⟩]
    source := some (.table ⟨m.target, some targetAlias⟩)
    filter := m.predicate?
    groupBy := [] }

/-- The insert that the fallback ends with: the source rows that match no target row. -/
def fallbackInsert (m : Merge) : Insert :=
  let unmatched : Select :=
    { distinct := false
      items := m.insertValues.map fun value => ⟨value, none⟩
      source := some (.subquery m.source sourceAlias)
      filter := some (.exists (.select m.matchingRows) true)
      groupBy := [] }
  ⟨m.target, m.insertColumns, .select unmatched⟩

def nativeTokens (d : Dialect) (m : Merge) : Except SqlError (List Token) :=
  match m.predicate? with
  | none => .error (.mergeWithoutKeys m.target.display)
  | some predicate => do
    let source ← (Source.subquery m.source sourceAlias).tokens d
    let predicate ← predicate.tokens d
    let sets ← assignmentTokens d (fromSource m.updatable)
    let values ← Expr.tokensOfAll d m.insertValues
    let whenMatched := if m.updatable.isEmpty then []
      else newline :: phrase [.when, .matched, .then, .update, .set] ++ space :: commaSeparated sets
    return phrase [.merge, .into] ++ [space, m.target.token] ++ d.aliasTokens targetAlias ++
      [newline, word .using, space] ++ source ++ [newline, word .on, space] ++
        parenthesised predicate ++
      whenMatched ++ newline :: phrase [.when, .not, .matched, .then, .insert] ++
      space :: nameListTokens m.insertColumns ++ [space, word .values, space] ++
      parenthesised (commaSeparated values) ++
      (if d.mergeNeedsTerminator then [sign .semicolon] else [])

def sql (d : Dialect) (m : Merge) : Except SqlError (List String) :=
  if m.keys.isEmpty then .error (.mergeWithoutKeys m.target.display)
  else if m.insertColumns.isEmpty then .error (.empty .mergeInsertColumns)
  else if d.hasMerge then do
    return [render d (← m.nativeTokens d)]
  else do
    let update ← if m.updatable.isEmpty then pure []
      else do pure [render d (← m.fallbackUpdate.tokens d)]
    let insert ← m.fallbackInsert.sql d
    let body := update ++ [insert]
    return match d.transaction? with
      | some t => if m.transactional then t.begin :: (body ++ [t.commit]) else body
      | none => body

end Merge

end Warehouse.Sql
