/-
Module: Warehouse.Load.Source
Purpose: The query that a load reads from. A dataset with a query tree reads that. Any other reads
  its first input, or its first outside table, and fills each column from what feeds it there; keys
  and hashes are computed, and what describes the load is left to placeholders.
Trusted boundary: none
Main exports: SourceQuery, sourceQuery, rowHash
-/
import Warehouse.Catalog.QueryPlan
import Warehouse.Load.Plan
import Warehouse.Sql.KeyHash

namespace Warehouse

open Sql

/-- A query and the columns that it fills, position by position. -/
structure SourceQuery where
  columns : List String
  plan : Plan

/-- The alias of the table that a load reads. -/
def loadAlias : String := "s"

/-- The value of a column in a row of the source. A table outside the warehouse has the same
columns. -/
def sourceValue (d : Dataset) (c : Column) (input : Option DatasetKey) : Except LoadError Expr :=
  match input with
  | none => .ok (.colOf loadAlias c.name)
  | some key =>
    match c.sourceIn? key with
    | some source => .ok (.colOf loadAlias source)
    | none => .error (.missingLineage d.key c.name input)

/-- No value, of the column's type if that is known. -/
def typedNull (c : Column) : Expr :=
  match c.type? with
  | some t => .cast (.literal .null) t
  | none => .literal .null

/-- Names in the form in which sets of names are compared: in small letters, in order, each once. -/
def normalisedNames (names : List String) : List String :=
  ((names.map Text.asciiLower).mergeSort (· ≤ ·)).eraseDups

/-- The columns that make up a surrogate key, and what separates them. An expression for the key may
choose the separator only: its columns have to be the natural keys. -/
def surrogateParts (d : Dataset) (c : Column) : Except LoadError (List String × String) :=
  match c.surrogateExpression? with
  | none => .ok (d.naturalKeys, defaultSeparator)
  | some text => do
    let e ← liftSurrogate (KeyExpr.parse text)
    let hashed := normalisedNames e.columns
    let naturalKeys := normalisedNames d.naturalKeys
    if hashed = naturalKeys then return (e.columns, e.separator?.getD defaultSeparator)
    else .error (.surrogateKeyMismatch d.key c.name hashed naturalKeys)

/-- The columns of those names with their values in a row of the source. -/
def namedValues (d : Dataset) (input : Option DatasetKey) :
    List String → Except LoadError (List HashComponent)
  | [] => .ok []
  | name :: rest => do
    match d.column? name with
    | none => .error (.missingLineage d.key name input)
    | some c =>
      let value ← sourceValue d c input
      let others ← namedValues d input rest
      return ⟨c.name, value⟩ :: others

/-- The value of a surrogate key. -/
def surrogateKeyValue (d : Dataset) (c : Column) (input : Option DatasetKey) :
    Except LoadError Expr := do
  let (names, separator) ← surrogateParts d c
  let components ← namedValues d input names
  liftSurrogate (hashComponents components separator)

/-- Whether a column is one of the natural keys. -/
def Dataset.isNaturalKey (d : Dataset) (name : String) : Bool :=
  d.naturalKeys.any fun k => Text.sameIgnoringAsciiCase k name

/-- The columns whose change is a change of the row: those that hold business data, without the
natural keys unless there are no others. -/
def Dataset.hashedColumns (d : Dataset) : List Column :=
  let others := d.businessColumns.filter fun c => ! d.isNaturalKey c.name
  if others.isEmpty then d.businessColumns else others

/-- The hash by which a change of a row is noticed. -/
def rowHash (d : Dataset) (value : Column → Except LoadError Expr) : Except LoadError Expr := do
  let components ← d.hashedColumns.mapM fun c => do
    return (⟨c.name, ← value c⟩ : HashComponent)
  liftSurrogate (hashComponents components defaultSeparator)

/-- What a load puts into a column. A column that nothing feeds stays empty. -/
def columnValue (d : Dataset) (input : Option DatasetKey) (c : Column) : Except LoadError Expr :=
  match c.role? with
  | some .surrogateKey => surrogateKeyValue d c input
  | some .rowHash => rowHash d fun c => sourceValue d c input
  | some .loadRunId => .ok (.placeholder .loadRunId)
  | some .loadedAt => .ok (.placeholder .loadTimestamp)
  | _ =>
    match sourceValue d c input with
    | .ok e => .ok e
    | .error _ => .ok (typedNull c)

/-- The table that a dataset without a query tree reads, and the input dataset that it is, if
any. -/
def sourceTable (d : Dataset) : Except LoadError (ObjectName × Option DatasetKey) :=
  match d.primaryInput?, d.sources.head? with
  | some key, _ => .ok (⟨some key.schema, key.name⟩, some key)
  | none, some source => .ok (⟨source.schema, source.table⟩, none)
  | none, none => .error (.noSource d.key)

/-- The query that maps the columns of one table to those of the dataset. The incremental filter is
about the columns of the source and is taken as it is. -/
def mappedSource (d : Dataset) (applyFilter : Bool) : Except LoadError SourceQuery := do
  let (table, input) ← sourceTable d
  let items ← d.orderedColumns.mapM fun c => do
    return (⟨← columnValue d input c, some c.name⟩ : SelectItem)
  let body : Select :=
    { distinct := false
      items
      source := some (.table ⟨table, some loadAlias⟩)
      filter := if applyFilter then d.incrementalFilter?.map Expr.raw else none
      groupBy := [] }
  return ⟨d.orderedColumns.map Column.name, .select body⟩

/-- The query that a load reads from. -/
def sourceQuery (c : Catalog) (d : Dataset) (applyFilter : Bool) : Except LoadError SourceQuery :=
  match d.queryRoot? with
  | some root => liftCatalog do
    let contract ← c.queryGraph.inferContract c root
    return ⟨contract.columns, ← c.queryGraph.plan c root⟩
  | none => mappedSource d applyFilter

end Warehouse
