/-
Module: Warehouse.Sql.Literal
Purpose: Constant values and their tokens. Dates, timestamps and decimals are held in a form that
  needs no further quoting once it is checked; a number that is not finite, or a decimal that is not
  one, has no token.
Trusted boundary: none
Main exports: Literal, isDecimalText, Literal.token, Dialect.dateLiteral, Dialect.timestampLiteral
-/
import Warehouse.Calendar
import Warehouse.Sql.Error
import Warehouse.Sql.Token
import Warehouse.Sql.TypeName

namespace Warehouse.Sql

/-- A constant. -/
inductive Literal where
  | null
  | bool (value : Bool)
  | int (value : Int)
  | float (value : Number.Binary64)
  | decimal (text : String)
  | string (value : String)
  | date (value : Date)
  | timestamp (value : Timestamp)
deriving DecidableEq, Repr

namespace Dialect

/-- The constant for a date that is written as `text`. -/
def dateLiteral (d : Dialect) (text : String) : String :=
  match d with
  | oracle => "DATE " ++ d.quoteString text
  | _ => "CAST(" ++ d.quoteString text ++ " AS " ++ d.castType .date ++ ")"

/-- The constant for a timestamp that is written as `text`. -/
def timestampLiteral (d : Dialect) (text : String) : String :=
  match d with
  | oracle => "TIMESTAMP " ++ d.quoteString text
  | _ => "CAST(" ++ d.quoteString text ++ " AS " ++ d.castType .timestamp ++ ")"

end Dialect

/-- Whether a text, blanks at its ends apart, is a decimal number: an optional sign, then ASCII
digits with at most one point among or around them, and at least one digit. -/
def isDecimalText (s : List Char) : Bool :=
  let unsigned := match Text.trim s with
    | '-' :: rest | '+' :: rest => rest
    | s => s
  let whole := unsigned.takeWhile (· ≠ '.')
  let fraction := (unsigned.drop whole.length).drop 1
  (! whole.isEmpty || ! fraction.isEmpty) && whole.all Char.isDigit && fraction.all Char.isDigit

def Literal.token (d : Dialect) : Literal → Except SqlError Token
  | null => .ok .null
  | bool b => .ok (.bool b)
  | int n => .ok (.int n)
  | float x => if x.isFinite then .ok (.float x) else .error (.unsupported d (.nonFiniteFloat x))
  | decimal s =>
    if isDecimalText s.toList then .ok (.raw (Text.strip s)) else .error (.invalidLiteral s)
  | string s => .ok (.string s)
  | date v => .ok (.raw (d.dateLiteral v.text))
  | timestamp v => .ok (.raw (d.timestampLiteral v.sqlText))

end Warehouse.Sql
