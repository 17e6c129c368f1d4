/-
Module: Warehouse.Sql.DataType
Purpose: The logical column types, and the reader of the many spellings that catalogs and databases
  use for them. A spelling is normalised first (blanks cut off, small letters, one space between
  words), so that case and spacing carry no meaning; `display` writes the one canonical spelling.
Trusted boundary: none
Main exports: DataType, DataType.parse?, DataType.display
-/
import Warehouse.Text.Blank
import Warehouse.Text.LetterCase
import Warehouse.Number.Unsigned

namespace Warehouse.Sql

/-- A column type, without the spelling any one database gives it. Precision and scale fit a byte,
lengths two. -/
inductive DataType where
  | bool
  | int8
  | int16
  | int32
  | int64
  | float32
  | float64
  | decimal (precision scale : UInt8)
  | string
  | char (length : UInt16)
  | varchar (length : UInt16)
  | date
  | time
  | timestamp
  | timestampTz
  | binary
  | json
  | uuid
deriving DecidableEq, Repr

namespace DataType

/-- The type that a spelling without parameters names. -/
def ofName? : String → Option DataType
  | "bool" | "boolean" | "bit" => some bool
  | "tinyint" | "byteint" => some int8
  | "smallint" | "int2" | "int16" => some int16
  | "int" | "integer" | "int4" | "int32" | "mediumint" => some int32
  | "bigint" | "int8" | "int64" => some int64
  | "real" | "float4" | "float32" => some float32
  | "double" | "double precision" | "float" | "float8" | "float64" | "binary_double" => some float64
  | "decimal" | "numeric" | "number" | "bignumeric" => some (decimal 38 0)
  | "money" => some (decimal 19 4)
  | "text" | "string" | "clob" | "nclob" | "ntext" | "longtext" | "mediumtext" | "varchar"
    | "nvarchar"
  | "varchar2" | "nvarchar2" | "character varying" => some string
  | "char" | "nchar" | "character" => some (char 1)
  | "date" => some date
  | "time" => some time
  | "timestamp" | "timestamp_ntz" | "timestamp without time zone" | "datetime" | "datetime2"
  | "smalldatetime" => some timestamp
  | "timestamptz" | "timestamp_tz" | "timestamp_ltz" | "timestamp with time zone"
  | "datetimeoffset" => some timestampTz
  | "binary" | "varbinary" | "blob" | "bytea" | "bytes" | "image" | "raw" => some binary
  | "json" | "jsonb" | "variant" => some json
  | "uuid" | "uniqueidentifier" => some uuid
  | _ => none

/-- A parameter that has to fit a byte. -/
def byte? (s : List Char) : Option UInt8 := (Number.unsigned? 256 s).map UInt8.ofNat

/-- A length: the first word of the parameter, which may be followed by a unit. -/
def length? (s : List Char) : Option UInt16 := do
  let word ← (Text.words s).head?
  (Number.unsigned? 65536 word).map UInt16.ofNat

/-- The type that `base`, followed by the comma-separated `args` in parentheses, names. A display
width or a number of fractional digits adds nothing to the type. -/
def ofParameters? (base : String) (args : List Char) : Option DataType :=
  let params := (Text.splitWhere (· = ',') args).map Text.trim
  match base with
  | "decimal" | "numeric" | "number" | "bignumeric" =>
    match params with
    | [p] => do return decimal (← byte? p) 0
    | [p, s] => do return decimal (← byte? p) (← byte? s)
    | _ => none
  | "varchar" | "nvarchar" | "varchar2" | "nvarchar2" | "character varying" | "string" =>
    match params with
    | [n] =>
      if n.map Char.toLower = ['m', 'a', 'x'] then some string
      else do return varchar (← length? n)
    | _ => none
  | "char" | "nchar" | "character" =>
    match params with
    | [n] => do return char (← length? n)
    | _ => none
  | "varbinary" | "binary" | "raw" => some binary
  | "float" =>
    match params with
    | [n] => do return if (← byte? n) ≤ 24 then float32 else float64
    | _ => none
  | "tinyint" => if args = ['1'] then some bool else ofName? base
  | "smallint" | "int" | "integer" | "bigint" | "time" | "timestamp" | "datetime" | "datetime2"
  | "timestamp_ntz" | "datetimeoffset" | "timestamp_tz" | "timestamp_ltz" => ofName? base
  | _ => none

/-- Splits a spelling that ends in a closing parenthesis at its first opening one. -/
def splitParameters? (s : List Char) : Option (List Char × List Char) :=
  let base := s.takeWhile (· ≠ '(')
  match s.drop base.length with
  | [] => none
  | _ :: inner =>
    if inner.getLast? = some ')' then some (Text.trim base, Text.trim inner.dropLast) else none

/-- A spelling in small letters, without blanks at its ends and with one space between words. -/
def normalise (s : List Char) : List Char :=
  (Text.words (Text.lowerChars (Text.trim s))).intersperse [' '] |>.flatten

/-- The type that a spelling names. -/
def parse? (text : String) : Option DataType :=
  let s := normalise text.toList
  match splitParameters? s with
  | some (base, args) => ofParameters? (String.ofList base) args
  | none => ofName? (String.ofList s)

def display : DataType → String
  | bool => "BOOLEAN"
  | int8 => "TINYINT"
  | int16 => "SMALLINT"
  | int32 => "INTEGER"
  | int64 => "BIGINT"
  | float32 => "REAL"
  | float64 => "DOUBLE PRECISION"
  | decimal p s => s!"DECIMAL({p}, {s})"
  | string => "TEXT"
  | char n => s!"CHAR({n})"
  | varchar n => s!"VARCHAR({n})"
  | date => "DATE"
  | time => "TIME"
  | timestamp => "TIMESTAMP"
  | timestampTz => "TIMESTAMP WITH TIME ZONE"
  | binary => "BINARY"
  | json => "JSON"
  | uuid => "UUID"

/-- Whole numbers of some width. -/
def isInteger : DataType → Bool
  | int8 | int16 | int32 | int64 => true
  | _ => false

/-- Whole, floating and decimal numbers. -/
def isNumeric : DataType → Bool
  | float32 | float64 | decimal _ _ => true
  | t => t.isInteger

/-- Texts, bounded or not. -/
def isString : DataType → Bool
  | string | char _ | varchar _ => true
  | _ => false

/-- Dates and times. -/
def isTemporal : DataType → Bool
  | date | time | timestamp | timestampTz => true
  | _ => false

end DataType

end Warehouse.Sql
