/-
Module: Warehouse.Sql.Error
Purpose: Why a piece of SQL cannot be written: the dialect lacks the construct, a constant is not
  one, a list that must not be empty is, or an expression for a surrogate key is at fault. The
  wording is in one place, `SqlError.message`.
Trusted boundary: none
Main exports: SurrogateError, Construct, EmptyPart, SqlError, SqlError.message
-/
import Warehouse.Number.Binary64
import Warehouse.Sql.Dialect

namespace Warehouse.Sql

/-- What the reader of a surrogate-key expression was looking for. -/
inductive ExpectedPart where
  | expression
  | quotedString
  | openConcat
  | closeConcat
  | openCol
  | closeCol
deriving DecidableEq, Repr

def ExpectedPart.message : ExpectedPart → String
  | expression => "concat(...), col(\"...\") or a string literal"
  | quotedString => "a quoted string"
  | openConcat => "'(' after concat"
  | closeConcat => "')' closing concat"
  | openCol => "'(' after col"
  | closeCol => "')' closing col"

/-- A fault in a surrogate-key expression. An offset counts the bytes before the fault in UTF-8. -/
inductive SurrogateError where
  | expected (offset : Nat) (part : ExpectedPart)
  | unknownFunction (offset : Nat) (name : String)
  | unterminatedString (offset : Nat)
  | trailingInput (offset : Nat)
  | noColumns
deriving DecidableEq, Repr

/-- The report of a fault in a surrogate-key expression. -/
def SurrogateError.message : SurrogateError → String
  | expected offset part => s!"at offset {offset}: expected " ++ part.message
  | unknownFunction offset name => s!"at offset {offset}: unknown function '" ++ name ++ "'"
  | unterminatedString offset => s!"at offset {offset}: unterminated string"
  | trailingInput offset => s!"at offset {offset}: unexpected trailing input"
  | noColumns => "surrogate expression references no columns"

/-- A construct that some dialect has no words for. -/
inductive Construct where
  | nonFiniteFloat (value : Number.Binary64)
  | rowNumberWithoutOrder
  | createSchema
  | alterColumnType
  | updateFromJoin
deriving DecidableEq, Repr

def Construct.message : Construct → String
  | nonFiniteFloat x => "non-finite float literal " ++ x.nonFiniteName
  | rowNumberWithoutOrder => "ROW_NUMBER() without ORDER BY"
  | createSchema => "CREATE SCHEMA"
  | alterColumnType => "ALTER COLUMN TYPE"
  | updateFromJoin => "UPDATE from a joined source"

/-- A list that a statement cannot do without. -/
inductive EmptyPart where
  | coalesce
  | selectList
  | union
  | columnList
  | insertColumns
  | assignments
  | mergeInsertColumns
deriving DecidableEq, Repr

def EmptyPart.message : EmptyPart → String
  | coalesce => "COALESCE"
  | selectList => "select list"
  | union => "union"
  | columnList => "column list"
  | insertColumns => "insert column list"
  | assignments => "update assignments"
  | mergeInsertColumns => "merge insert columns"

/-- Why SQL cannot be written. -/
inductive SqlError where
  | unsupported (dialect : Dialect) (construct : Construct)
  | invalidLiteral (text : String)
  | empty (part : EmptyPart)
  | mergeWithoutKeys (target : String)
  | surrogate (cause : SurrogateError)
deriving DecidableEq, Repr

def SqlError.message : SqlError → String
  | unsupported d construct => d.name ++ " cannot express " ++ construct.message
  | invalidLiteral text => "invalid literal '" ++ text ++ "'"
  | empty part => "empty " ++ part.message
  | mergeWithoutKeys target => "merge into " ++ target ++ " declares no key columns"
  | surrogate cause => "surrogate expression: " ++ cause.message

end Warehouse.Sql
