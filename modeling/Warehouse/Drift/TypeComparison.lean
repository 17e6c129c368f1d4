/-
Module: Warehouse.Drift.TypeComparison
Purpose: Whether the type that a column is declared with and the type that it has in the database
  are the same, differ in a way that no load notices, or have drifted apart.
Trusted boundary: none
Main exports: TypeComparison, isBenign, compareTypes
-/
import Warehouse.Sql.TypeName

namespace Warehouse

open Sql (DataType Dialect)

/-- How a declared type and a live one relate. -/
inductive TypeComparison where
  | same
  | benign
  | drift (declared live : DataType)
  /-- One of the spellings names no type. -/
  | unknown
deriving DecidableEq, Repr

/-- The number of bytes of an integer type. -/
def integerWidth : DataType → Nat
  | .int8 => 1
  | .int16 => 2
  | .int32 => 4
  | _ => 8

/-- Whether a difference does no harm: the database has one type for both, the two timestamps or
strings are read alike, or the live type holds at least as much. -/
def isBenign (dialect : Dialect) (declared live : DataType) : Bool :=
  dialect.columnType declared = dialect.columnType live ||
    match declared, live with
    | .timestamp, .timestampTz | .timestampTz, .timestamp => true
    | .string, .varchar _ | .varchar _, .string => true
    | .varchar want, .varchar actual => want ≤ actual
    | .timestamp, .date => dialect = .oracle
    | d, l => d.isInteger && l.isInteger && integerWidth d ≤ integerWidth l

/-- Compares two spellings. -/
def compareTypes (dialect : Dialect) (declared live : String) : TypeComparison :=
  match DataType.parse? declared, DataType.parse? live with
  | some d, some l =>
    if d = l then .same else if isBenign dialect d l then .benign else .drift d l
  | _, _ => .unknown

end Warehouse
