/-
Module: Warehouse.Sql.Dialect
Purpose: The ten databases that SQL is written for, the names they go by, and the decisions that
  differ between them and are a plain yes, no or keyword. What takes a text or a type has its own
  module.
Trusted boundary: none
Main exports: Dialect, Dialect.parse, UpdateStyle, Transaction
-/
import Warehouse.Text.Blank
import Warehouse.Text.LetterCase

namespace Warehouse.Sql

/-- A database product whose SQL can be written. -/
inductive Dialect where
  | duckdb
  | postgres
  | tsql
  | fabric
  | mysql
  | snowflake
  | bigquery
  | redshift
  | databricks
  | oracle
deriving DecidableEq, Repr

/-- How an update takes its values from another table: a `FROM` clause beside the target, a join
between the target and `SET`, a `FROM` clause that joins the aliased target, or not at all. -/
inductive UpdateStyle where
  | fromClause
  | joinClause
  | aliasedFrom
  | unsupported
deriving DecidableEq, Repr

/-- The statements that open and close a transaction. -/
structure Transaction where
  begin : String
  commit : String
deriving DecidableEq, Repr

namespace Dialect

/-- Every dialect, once. -/
def all : List Dialect :=
  [duckdb, postgres, tsql, fabric, mysql, snowflake, bigquery, redshift, databricks, oracle]

/-- The canonical name. -/
def name : Dialect → String
  | duckdb => "duckdb"
  | postgres => "postgres"
  | tsql => "tsql"
  | fabric => "fabric"
  | mysql => "mysql"
  | snowflake => "snowflake"
  | bigquery => "bigquery"
  | redshift => "redshift"
  | databricks => "databricks"
  | oracle => "oracle"

/-- The dialect that a name in small letters stands for, aliases included. -/
def ofName? : String → Option Dialect
  | "duckdb" | "duck" => some duckdb
  | "postgres" | "postgresql" | "pg" => some postgres
  | "tsql" | "mssql" | "sqlserver" | "sql_server" => some tsql
  | "fabric" | "fabric_warehouse" => some fabric
  | "mysql" | "mariadb" => some mysql
  | "snowflake" => some snowflake
  | "bigquery" | "bq" => some bigquery
  | "redshift" => some redshift
  | "databricks" | "spark" => some databricks
  | "oracle" => some oracle
  | _ => none

/-- A name that stands for no dialect, in the form in which it was looked up. -/
structure Unknown where
  name : String
deriving DecidableEq, Repr

def Unknown.message (e : Unknown) : String := "unknown dialect '" ++ e.name ++ "'"

/-- Reads a dialect's name in any case, with blanks around it. -/
def parse (text : String) : Except Unknown Dialect :=
  let name := Text.lower (Text.strip text)
  match ofName? name with
  | some d => .ok d
  | none => .error ⟨name⟩

/-- The two Microsoft engines, which share most of their grammar. -/
def isMicrosoft : Dialect → Bool
  | tsql | fabric => true
  | _ => false

/-- How a truth value is written: as a keyword, or as a number where there is no such type. -/
def boolText (d : Dialect) (b : Bool) : String :=
  match d with
  | tsql | fabric | mysql | oracle => if b then "1" else "0"
  | _ => if b then "TRUE" else "FALSE"

/-- The operator that joins texts. -/
def concatOperator (d : Dialect) : String := if d.isMicrosoft then "+" else "||"

/-- Whether that operator means concatenation by default. -/
def hasConcatOperator (d : Dialect) : Bool := d ≠ mysql

/-- Whether `IF NOT EXISTS` may stand in `CREATE TABLE`. -/
def hasIfNotExists : Dialect → Bool
  | tsql | fabric | oracle => false
  | _ => true

/-- Whether `ADD` is followed by `COLUMN`. -/
def addColumnKeyword : Dialect → Bool
  | tsql | fabric | oracle => false
  | _ => true

/-- The words that create a view or put another in its place. -/
def createViewKeyword (d : Dialect) : String :=
  if d.isMicrosoft then "CREATE OR ALTER VIEW" else "CREATE OR REPLACE VIEW"

/-- Whether `AS` may stand before the alias of a table. -/
def tableAliasKeyword (d : Dialect) : Bool := d ≠ oracle

/-- Whether `ROW_NUMBER` needs an order. -/
def rowNumberNeedsOrder : Dialect → Bool
  | tsql | fabric | snowflake | databricks | oracle => true
  | _ => false

/-- The words for a union that drops duplicates. -/
def unionDistinctKeyword : Dialect → String
  | bigquery => "UNION DISTINCT"
  | _ => "UNION"

/-- How an update takes its values from another table. -/
def updateStyle : Dialect → UpdateStyle
  | tsql | fabric => .aliasedFrom
  | mysql => .joinClause
  | databricks | oracle => .unsupported
  | _ => .fromClause

/-- Whether a `MERGE` has to end in a semicolon. -/
def mergeNeedsTerminator (d : Dialect) : Bool := d = tsql

/-- The statements around a transaction, where the dialect has one. -/
def transaction? : Dialect → Option Transaction
  | postgres | redshift => some ⟨"BEGIN", "COMMIT"⟩
  | mysql => some ⟨"START TRANSACTION", "COMMIT"⟩
  | databricks | oracle => none
  | _ => some ⟨"BEGIN TRANSACTION", "COMMIT"⟩

/-- Whether the dialect has a `MERGE` statement. -/
def hasMerge : Dialect → Bool
  | postgres | tsql | snowflake | bigquery | databricks | oracle => true
  | _ => false

/-- Whether rows can be deleted by an anti-join; all ten can. -/
def hasDeleteDetection (_ : Dialect) : Bool := true

/-- Whether a column's type can be changed in place. -/
def hasAlterColumnType : Dialect → Bool
  | fabric | bigquery | databricks => false
  | _ => true

end Dialect

end Warehouse.Sql
