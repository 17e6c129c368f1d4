/-
Module: Warehouse.Sql.TypeName
Purpose: What each dialect calls a logical type, in a column definition and as the target of a cast.
  Two logical types may share a name where a database has only one type for both.
Trusted boundary: none
Main exports: Dialect.columnType, Dialect.castType
-/
import Warehouse.Sql.DataType
import Warehouse.Sql.Dialect

namespace Warehouse.Sql.Dialect

open DataType

/-- A type name with precision and scale. -/
def withScale (name : String) (p s : UInt8) : String := s!"{name}({p}, {s})"

/-- A type name with a length. -/
def withLength (name : String) (n : UInt16) : String := s!"{name}({n})"

/-- PostgreSQL's names, on which others build. -/
def postgresType : DataType → String
  | .bool => "BOOLEAN"
  | int8 | int16 => "SMALLINT"
  | int32 => "INTEGER"
  | int64 => "BIGINT"
  | float32 => "REAL"
  | float64 => "DOUBLE PRECISION"
  | decimal p s => withScale "NUMERIC" p s
  | .string => "TEXT"
  | .char n => withLength "CHAR" n
  | varchar n => withLength "VARCHAR" n
  | date => "DATE"
  | time => "TIME"
  | timestamp => "TIMESTAMP"
  | timestampTz => "TIMESTAMPTZ"
  | binary => "BYTEA"
  | json => "JSONB"
  | uuid => "UUID"

/-- DuckDB's names. -/
def duckdbType : DataType → String
  | int8 => "TINYINT"
  | float64 => "DOUBLE"
  | decimal p s => withScale "DECIMAL" p s
  | .string => "VARCHAR"
  | binary => "BLOB"
  | json => "JSON"
  | t => postgresType t

/-- Redshift's names. -/
def redshiftType : DataType → String
  | .string => "VARCHAR(65535)"
  | binary => "VARBYTE"
  | json => "SUPER"
  | uuid => "CHAR(36)"
  | t => postgresType t

/-- SQL Server's names. -/
def tsqlType : DataType → String
  | .bool => "BIT"
  | int8 => "TINYINT"
  | int16 => "SMALLINT"
  | int32 => "INT"
  | int64 => "BIGINT"
  | float32 => "REAL"
  | float64 => "FLOAT"
  | decimal p s => withScale "DECIMAL" p s
  | .string | json => "NVARCHAR(MAX)"
  | .char n => withLength "NCHAR" n
  | varchar n => withLength "NVARCHAR" n
  | date => "DATE"
  | time => "TIME"
  | timestamp => "DATETIME2"
  | timestampTz => "DATETIMEOFFSET"
  | binary => "VARBINARY(MAX)"
  | uuid => "UNIQUEIDENTIFIER"

/-- The names of Fabric warehouses, which lack the national types and the zoned timestamp. -/
def fabricType : DataType → String
  | int8 => "SMALLINT"
  | .string | json => "VARCHAR(MAX)"
  | .char n => withLength "CHAR" n
  | varchar n => withLength "VARCHAR" n
  | time => "TIME(6)"
  | timestamp | timestampTz => "DATETIME2(6)"
  | t => tsqlType t

/-- MySQL's names. -/
def mysqlType : DataType → String
  | .bool => "TINYINT(1)"
  | int8 => "TINYINT"
  | int16 => "SMALLINT"
  | int32 => "INT"
  | int64 => "BIGINT"
  | float32 => "FLOAT"
  | float64 => "DOUBLE"
  | decimal p s => withScale "DECIMAL" p s
  | .string => "LONGTEXT"
  | .char n => withLength "CHAR" n
  | varchar n => withLength "VARCHAR" n
  | date => "DATE"
  | time => "TIME(6)"
  | timestamp => "DATETIME(6)"
  | timestampTz => "TIMESTAMP(6)"
  | binary => "LONGBLOB"
  | json => "JSON"
  | uuid => "CHAR(36)"

/-- What MySQL's `CAST` accepts, which is not what its columns accept. -/
def mysqlCast : DataType → String
  | .bool | int8 | int16 | int32 | int64 => "SIGNED"
  | float32 => "FLOAT"
  | float64 => "DOUBLE"
  | decimal p s => withScale "DECIMAL" p s
  | .string | uuid => "CHAR"
  | .char n | varchar n => withLength "CHAR" n
  | date => "DATE"
  | time => "TIME(6)"
  | timestamp | timestampTz => "DATETIME(6)"
  | binary => "BINARY"
  | json => "JSON"

/-- Snowflake's names. -/
def snowflakeType : DataType → String
  | .bool => "BOOLEAN"
  | int8 | int16 | int32 | int64 => "NUMBER(38, 0)"
  | float32 | float64 => "FLOAT"
  | decimal p s => withScale "NUMBER" p s
  | .string => "VARCHAR"
  | .char n => withLength "CHAR" n
  | varchar n => withLength "VARCHAR" n
  | date => "DATE"
  | time => "TIME"
  | timestamp => "TIMESTAMP_NTZ"
  | timestampTz => "TIMESTAMP_TZ"
  | binary => "BINARY"
  | json => "VARIANT"
  | uuid => "VARCHAR(36)"

/-- BigQuery's names; more than 38 digits need the wider decimal. -/
def bigqueryType : DataType → String
  | .bool => "BOOL"
  | int8 | int16 | int32 | int64 => "INT64"
  | float32 | float64 => "FLOAT64"
  | decimal p s => withScale (if 38 < p then "BIGNUMERIC" else "NUMERIC") p s
  | .string | .char _ | uuid => "STRING"
  | varchar n => withLength "STRING" n
  | date => "DATE"
  | time => "TIME"
  | timestamp => "DATETIME"
  | timestampTz => "TIMESTAMP"
  | binary => "BYTES"
  | json => "JSON"

/-- BigQuery casts to types without parameters only. -/
def bigqueryCast : DataType → String
  | varchar _ => "STRING"
  | decimal _ _ => "NUMERIC"
  | t => bigqueryType t

/-- The names of Databricks, whose texts have no length. -/
def databricksType : DataType → String
  | .bool => "BOOLEAN"
  | int8 => "TINYINT"
  | int16 => "SMALLINT"
  | int32 => "INT"
  | int64 => "BIGINT"
  | float32 => "FLOAT"
  | float64 => "DOUBLE"
  | decimal p s => withScale "DECIMAL" p s
  | .string | .char _ | varchar _ | uuid | time | json => "STRING"
  | date => "DATE"
  | timestamp => "TIMESTAMP_NTZ"
  | timestampTz => "TIMESTAMP"
  | binary => "BINARY"

/-- Oracle's names; a length counts characters, not bytes. -/
def oracleType : DataType → String
  | .bool => "NUMBER(1)"
  | int8 => "NUMBER(3)"
  | int16 => "NUMBER(5)"
  | int32 => "NUMBER(10)"
  | int64 => "NUMBER(19)"
  | float32 => "BINARY_FLOAT"
  | float64 => "BINARY_DOUBLE"
  | decimal p s => withScale "NUMBER" p s
  | .string | json => "CLOB"
  | .char n => s!"CHAR({n} CHAR)"
  | varchar n => s!"VARCHAR2({n} CHAR)"
  | date => "DATE"
  | time => "VARCHAR2(16)"
  | timestamp => "TIMESTAMP"
  | timestampTz => "TIMESTAMP WITH TIME ZONE"
  | binary => "BLOB"
  | uuid => "VARCHAR2(36)"

/-- Oracle cannot cast to a large object. -/
def oracleCast : DataType → String
  | .string | json => "VARCHAR2(4000)"
  | t => oracleType t

/-- The name of a type in a column definition. -/
def columnType : Dialect → DataType → String
  | duckdb => duckdbType
  | postgres => postgresType
  | tsql => tsqlType
  | fabric => fabricType
  | mysql => mysqlType
  | snowflake => snowflakeType
  | bigquery => bigqueryType
  | redshift => redshiftType
  | databricks => databricksType
  | oracle => oracleType

/-- The name of a type as the target of a cast. -/
def castType : Dialect → DataType → String
  | mysql => mysqlCast
  | bigquery => bigqueryCast
  | oracle => oracleCast
  | d => d.columnType

end Warehouse.Sql.Dialect
