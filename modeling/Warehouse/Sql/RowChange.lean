/-
Module: Warehouse.Sql.RowChange
Purpose: Statements that change the rows of one table, as data and as text.
Trusted boundary: none
Main exports: Insert, Update, Delete, assignmentTokens
-/
import Warehouse.Sql.Expr.Tokens

namespace Warehouse.Sql

open Token (space newline)

/-- Adds the rows of a query; its columns go into `columns`, position by position. -/
structure Insert where
  target : ObjectName
  columns : List String
  source : Plan

/-- Gives columns new values in the rows that satisfy the filter; without one, in all rows. -/
structure Update where
  target : ObjectName
  assignments : List (String × Expr)
  filter : Option Expr

/-- Removes the rows that satisfy the filter; without one, all rows. -/
structure Delete where
  target : ObjectName
  filter : Option Expr

/-- The tokens of a list of names between parentheses. -/
def nameListTokens (names : List String) : List Token :=
  parenthesised (commaSeparated (names.map fun n => [.name n]))

def assignmentTokens (d : Dialect) : List (String × Expr) → Except SqlError (List (List Token))
  | [] => .ok []
  | (column, value) :: rest => do
    let inner ← value.tokens d
    let others ← assignmentTokens d rest
    return ([Token.name column, space, sign .eq, space] ++ inner) :: others

/-- The tokens of an optional `WHERE` clause, on its own line. -/
def whereTokens (d : Dialect) (filter : Option Expr) : Except SqlError (List Token) :=
  match filter with
  | none => .ok []
  | some predicate => do
    return [newline, word .where, space] ++ (← predicate.tokens d)

namespace Insert

def tokens (d : Dialect) (s : Insert) : Except SqlError (List Token) :=
  if s.columns.isEmpty then .error (.empty .insertColumns)
  else do
    let body ← s.source.tokens d
    return phrase [.insert, .into] ++ [space, s.target.token, space] ++ nameListTokens s.columns ++
      newline :: body

def sql (d : Dialect) (s : Insert) : Except SqlError String := do return render d (← s.tokens d)

end Insert

namespace Update

/-- The same with one more assignment. -/
def set (s : Update) (column : String) (value : Expr) : Update :=
  { s with assignments := s.assignments ++ [(column, value)] }

/-- The same with one more condition. -/
def andWhere (s : Update) (predicate : Expr) : Update :=
  { s with filter := some (Expr.addFilter s.filter predicate) }

def tokens (d : Dialect) (s : Update) : Except SqlError (List Token) :=
  if s.assignments.isEmpty then .error (.empty .assignments)
  else do
    let sets ← assignmentTokens d s.assignments
    let condition ← whereTokens d s.filter
    return [word .update, space, s.target.token, newline, word .set, space] ++
      commaSeparated sets ++ condition

def sql (d : Dialect) (s : Update) : Except SqlError String := do return render d (← s.tokens d)

end Update

namespace Delete

/-- The same with one more condition. -/
def andWhere (s : Delete) (predicate : Expr) : Delete :=
  { s with filter := some (Expr.addFilter s.filter predicate) }

def tokens (d : Dialect) (s : Delete) : Except SqlError (List Token) := do
  return phrase [.delete, .from] ++ [space, s.target.token] ++ (← whereTokens d s.filter)

def sql (d : Dialect) (s : Delete) : Except SqlError String := do return render d (← s.tokens d)

end Delete

end Warehouse.Sql
