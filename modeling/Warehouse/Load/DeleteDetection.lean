/-
Module: Warehouse.Load.DeleteDetection
Purpose: Removing the rows whose source has gone. A row is kept as long as its input has a row of
  the same natural key; with an incremental filter only rows that satisfy it are looked at, so that
  a load that saw a part of the input removes nothing else.
Trusted boundary: none
Main exports: deleteDetection
-/
import Warehouse.Load.Filter
import Warehouse.Load.Source
import Warehouse.Sql.RowChange

namespace Warehouse

open Sql

/-- The name of a dataset's table. -/
def Dataset.objectName (d : Dataset) : ObjectName := ⟨some d.schema, d.name⟩

/-- For each natural key that the input column which feeds it agrees with it. -/
def keyMatches (d : Dataset) (input : DatasetKey) : List String → Except LoadError (List Expr)
  | [] => .ok []
  | key :: rest => do
    match (d.column? key).bind fun c => c.sourceIn? input with
    | none => .error (.missingLineage d.key key (some input))
    | some source =>
      let others ← keyMatches d input rest
      return (Expr.colOf loadAlias source).eq (.column (some d.objectName) key) :: others

/-- The condition that an incremental filter puts on the rows of the dataset. -/
def windowCondition (d input : Dataset) (filter : String) : Except LoadError Expr :=
  let inputColumns := input.columns.map fun c => Text.asciiLower c.name
  match retargetFilter filter (d.lineageMap input.key) inputColumns with
  | .ok text => .ok (.raw ("(" ++ text ++ ")"))
  | .error column => .error (.missingLineage d.key column (some input.key))

/-- Removes the rows of a dataset whose input row has gone. -/
def deleteDetection (c : Catalog) (d : Dataset) : Except LoadError Delete := do
  if d.naturalKeys.isEmpty then throw (.missingNaturalKeys d.key)
  match d.primaryInput? with
  | none => .error (.noSource d.key)
  | some key =>
    let input ← liftCatalog (c.get key)
    let join ← keyMatches d key d.naturalKeys
    let stillThere : Select :=
      { distinct := false
        items := [⟨.literal (.int 1), none⟩]
        source := some (.table ⟨⟨some input.schema, input.name⟩, some loadAlias⟩)
        filter := Expr.andAll join
        groupBy := [] }
    let window ← match d.incrementalFilter? with
      | none => pure none
      | some filter => do pure (some (← windowCondition d input filter))
    return (⟨d.objectName, window⟩ : Delete).andWhere (.exists (.select stillThere) true)

end Warehouse
