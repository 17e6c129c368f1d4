/-
Module: Warehouse.Load.Compose
Purpose: The statements of a load, and their texts. A statement that cannot be made is reported in
  its turn, after those before it have been written.
Trusted boundary: none
Main exports: loadStatements, composeLoad, columnSpecs, createTable
-/
import Warehouse.Load.History

namespace Warehouse

open Sql

/-- A statement, or why it cannot be made. -/
abbrev Planned := Except LoadError Statement

/-- The columns of a merge that a match overwrites: neither natural keys nor the surrogate key. -/
def mergeUpdateColumns (d : Dataset) (columns : List String) : List String :=
  columns.filter fun c => ! d.isNaturalKey c && match d.columnWithRole? .surrogateKey with
    | some key => ! Text.sameIgnoringAsciiCase key.name c
    | none => true

/-- The merge of a source query into a dataset. -/
def mergeInto (d : Dataset) (source : SourceQuery) (transactional : Bool) : Merge :=
  { target := d.objectName
    source := source.plan
    keys := d.naturalKeys
    updateColumns := mergeUpdateColumns d source.columns
    insertColumns := source.columns
    transactional }

/-- The insert of a source query into a dataset. -/
def insertInto (d : Dataset) (source : SourceQuery) : Insert :=
  ⟨d.objectName, source.columns, source.plan⟩

/-- The statements of a load, in order. -/
def loadStatements (c : Catalog) (d : Dataset) (plan : LoadPlan) (transactional : Bool) :
    Except LoadError (List Planned) := do
  match plan.mode with
  | .view =>
    let source ← sourceQuery c d false
    return [.ok (.definition (.createView d.objectName source.plan))]
  | .full =>
    let source ← sourceQuery c d false
    return [.ok (.definition (.truncate d.objectName)), .ok (.insert (insertInto d source))]
  | .append =>
    let source ← sourceQuery c d true
    return [.ok (.insert (insertInto d source))]
  | .snapshot =>
    let source ← sourceQuery c d false
    return [.ok (.insert (insertInto d source))]
  | .merge =>
    let source ← sourceQuery c d true
    let merge : Planned := .ok (.merge (mergeInto d source transactional))
    return merge :: (if plan.handleDeletes then [(deleteDetection c d).map .delete] else [])
  | .historize => return (← historyStatements c d).map .ok

/-- The texts of planned statements, up to the first that cannot be made or written. -/
def renderPlanned (dialect : Dialect) : List Planned → Except LoadError (List String)
  | [] => .ok []
  | planned :: rest => do
    let texts ← liftSql ((← planned).sql dialect)
    let others ← renderPlanned dialect rest
    return texts ++ others

/-- A load: its plan and the texts of its statements. -/
structure LoadSql where
  plan : LoadPlan
  statements : List String

/-- The load of the dataset of that key. -/
def composeLoad (c : Catalog) (key : DatasetKey) (dialect : Dialect) (transactional : Bool) :
    Except LoadError LoadSql := do
  let d ← liftCatalog (c.get key)
  let plan ← resolveLoadPlan c d
  checkCapabilities plan dialect
  let planned ← loadStatements c d plan transactional
  return ⟨plan, ← renderPlanned dialect planned⟩

/-- The columns of a dataset's table. -/
def columnSpecs (d : Dataset) : Except LoadError (List ColumnSpec) :=
  d.orderedColumns.mapM fun c =>
    match c.type? with
    | some type => .ok ⟨c.name, type, c.nullable⟩
    | none => .error (.unresolvedType d.key c.name c.datatype)

/-- The text that creates a dataset's table. -/
def createTable (d : Dataset) (dialect : Dialect) : Except LoadError String := do
  liftSql ((Definition.createTable d.objectName (← columnSpecs d)).sql dialect)

end Warehouse
