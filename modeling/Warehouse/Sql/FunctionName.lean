/-
Module: Warehouse.Sql.FunctionName
Purpose: Functions that databases have under different names. A query names a function as its author
  knows it; where the dialect at hand calls it otherwise, the name is exchanged.
Trusted boundary: none
Main exports: Dialect.functionSynonym?, Dialect.functionName
-/
import Warehouse.Sql.Dialect

namespace Warehouse.Sql.Dialect

/-- The dialect's own name for a function that it does not know under `name`, which is in
capitals. -/
def synonymOfUpper? (d : Dialect) (name : String) : Option String :=
  match d with
  | duckdb | postgres | redshift =>
    match name with
    | "NVL" | "IFNULL" | "ISNULL" => some "COALESCE"
    | "LEN" => some "LENGTH"
    | "GETDATE" | "SYSDATE" => some "NOW"
    | _ => none
  | tsql | fabric =>
    match name with
    | "LENGTH" | "CHAR_LENGTH" => some "LEN"
    | "SUBSTR" => some "SUBSTRING"
    | "NOW" | "SYSDATE" => some "SYSUTCDATETIME"
    | "NVL" | "IFNULL" => some "ISNULL"
    | _ => none
  | mysql =>
    match name with
    | "NVL" | "ISNULL" => some "IFNULL"
    | "LEN" => some "CHAR_LENGTH"
    | "GETDATE" | "SYSDATE" => some "NOW"
    | _ => none
  | snowflake =>
    match name with
    | "IFNULL" | "ISNULL" => some "NVL"
    | "LEN" => some "LENGTH"
    | "GETDATE" => some "CURRENT_TIMESTAMP"
    | _ => none
  | bigquery =>
    match name with
    | "NVL" | "ISNULL" => some "IFNULL"
    | "LEN" | "LENGTH" => some "CHAR_LENGTH"
    | "GETDATE" | "NOW" | "SYSDATE" => some "CURRENT_TIMESTAMP"
    | _ => none
  | databricks =>
    match name with
    | "NVL" | "ISNULL" | "IFNULL" => some "COALESCE"
    | "LEN" => some "LENGTH"
    | "GETDATE" | "SYSDATE" => some "CURRENT_TIMESTAMP"
    | _ => none
  | oracle =>
    match name with
    | "IFNULL" | "ISNULL" => some "NVL"
    | "LEN" | "CHAR_LENGTH" => some "LENGTH"
    | "SUBSTRING" => some "SUBSTR"
    | "NOW" | "GETDATE" => some "SYSTIMESTAMP"
    | _ => none

/-- The dialect's own name for a function that it does not know under `name`. -/
def functionSynonym? (d : Dialect) (name : String) : Option String :=
  d.synonymOfUpper? (Text.upper name)

/-- The name to write for a function, in capitals. -/
def functionName (d : Dialect) (name : String) : String :=
  (d.functionSynonym? name).getD (Text.upper name)

end Warehouse.Sql.Dialect
