/-
Module: Warehouse.Catalog.Shadow
Purpose: The dataset that keeps the history of another, its shadow. It has the business columns of
  its base, each fed by the column of the same name, between a key of its own and the columns that
  bound and describe a version.
Trusted boundary: none
Main exports: shadowSuffix, shadowColumns, deriveShadow
-/
import Warehouse.Catalog.Dataset

namespace Warehouse

/-- What is added to the name of a base. -/
def shadowSuffix : String := "_hist"

/-- A column for the platform's own use. -/
def systemColumn (name datatype : String) (role : SystemRole) : Column :=
  { Column.plain name datatype 0 with role? := some role }

/-- The column that holds the history of a column of the base. -/
def shadowColumn (base : DatasetKey) (c : Column) : Column :=
  { Column.plain c.name c.datatype 0 with
    nullable := c.nullable
    role? := c.role?
    lineage := [⟨base, c.name, true⟩] }

/-- The columns with ordinals from 1 up. -/
def numbered (columns : List Column) : List Column :=
  columns.mapIdx fun i c => { c with ordinal := UInt32.ofNat (i + 1) }

/-- The columns of a shadow, in order. -/
def shadowColumns (base : Dataset) : List Column :=
  numbered ([systemColumn (base.name ++ shadowSuffix ++ "_key") "varchar(64)" .surrogateKey] ++
    base.businessColumns.map (shadowColumn base.key) ++
    [systemColumn "row_hash" "varchar(64)" .rowHash,
     { systemColumn "version_started_at" "timestamp" .versionStartedAt with nullable := false },
     systemColumn "version_ended_at" "timestamp" .versionEndedAt,
     systemColumn "version_state" "varchar(16)" .versionState,
     systemColumn "load_run_id" "varchar(64)" .loadRunId])

/-- The shadow of `base`, under the given number. -/
def deriveShadow (base : Dataset) (id : UInt32) : Dataset :=
  { id
    schema := base.schema
    name := base.name ++ shadowSuffix
    strategy := .historize
    materialization := .table
    historize? := none
    naturalKeys := base.naturalKeys
    formerNames := base.formerNames.map (· ++ shadowSuffix)
    handleDeletes := false
    incrementalFilter? := none
    inputs := [base.key]
    sources := []
    columns := shadowColumns base
    queryRoot? := none
    histOf? := some base.key }

end Warehouse
