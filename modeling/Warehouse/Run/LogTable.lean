/-
Module: Warehouse.Run.LogTable
Purpose: The table that holds the log of runs, and the statements that make or complete it in a
  database. Columns are found whatever their case; a table whose columns are not known is left as it
  is.
Trusted boundary: none
Main exports: LogTableError, logColumns, logTableStatements
-/
import Warehouse.Drift.LiveSchema
import Warehouse.Sql.Definition

namespace Warehouse

open Sql (ColumnSpec DataType Definition Dialect ObjectName SqlError)

/-- Why the table cannot be made. -/
inductive LogTableError where
  | schemaMissing (schema : String) (dialect : Dialect)
  | sql (cause : SqlError)

def LogTableError.message : LogTableError → String
  | schemaMissing schema dialect =>
    s!"run-log schema '{schema}' is missing and {dialect.name} cannot create it"
  | sql cause => cause.message

/-- The columns of the table. -/
def logColumns : List ColumnSpec := [
  ⟨"batch_id", .varchar 64, false⟩,
  ⟨"load_run_id", .varchar 64, false⟩,
  ⟨"target_schema", .varchar 256, true⟩,
  ⟨"target_dataset", .varchar 256, true⟩,
  ⟨"target_system", .varchar 256, true⟩,
  ⟨"profile", .varchar 256, true⟩,
  ⟨"mode", .varchar 64, true⟩,
  ⟨"handle_deletes", .bool, true⟩,
  ⟨"historize", .bool, true⟩,
  ⟨"started_at", .timestamp, true⟩,
  ⟨"finished_at", .timestamp, true⟩,
  ⟨"render_ms", .int64, true⟩,
  ⟨"execution_ms", .int64, true⟩,
  ⟨"sql_length", .int64, true⟩,
  ⟨"rows_affected", .int64, true⟩,
  ⟨"status", .varchar 64, true⟩,
  ⟨"error_message", .string, true⟩,
  ⟨"attempt_no", .int32, true⟩,
  ⟨"status_reason", .varchar 64, true⟩,
  ⟨"blocked_by", .varchar 256, true⟩]

/-- The columns of the log that a table lacks which has those of the given names. Added to a table
that may hold rows, every column may be null. -/
def missingLogColumns (existing : List String) : List ColumnSpec :=
  (logColumns.filter fun c => c.name ∉ existing.map Text.lower).map fun c =>
    { c with nullable := true }

/-- What has to be defined so that the table is there. -/
def logTableDefinitions (live : LiveSchema) (schema table : String) : List Definition :=
  let name : ObjectName := ⟨some schema, table⟩
  (if live.hasSchema schema then [] else [.createSchema schema]) ++
    (if live.hasTable schema table then
      match (live.columns schema table).map LiveColumn.name with
      | [] => []
      | existing => (missingLogColumns existing).map (.addColumn name)
    else [.createTable name logColumns])

/-- The texts of the statements that make the table, or complete it. -/
def logTableStatements (live : LiveSchema) (dialect : Dialect) (schema table : String) :
    Except LogTableError (List String) :=
  if ! live.hasSchema schema && (Definition.createSchemaTokens? dialect schema).isNone then
    .error (.schemaMissing schema dialect)
  else ((logTableDefinitions live schema table).mapM (Definition.sql dialect)).mapError .sql

end Warehouse
