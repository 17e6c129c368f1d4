/-
Module: Warehouse.Sql.Statement
Purpose: Any statement that a load runs, as one type. A merge may be written as several.
Trusted boundary: none
Main exports: Statement, Statement.sql
-/
import Warehouse.Sql.Definition
import Warehouse.Sql.Merge

namespace Warehouse.Sql

/-- A statement, before it is written for a dialect. -/
inductive Statement where
  | definition (statement : Definition)
  | insert (statement : Insert)
  | update (statement : Update)
  | delete (statement : Delete)
  | merge (statement : Merge)

def Statement.sql (d : Dialect) : Statement → Except SqlError (List String)
  | definition s => do return [← s.sql d]
  | insert s => do return [← s.sql d]
  | update s => do return [← s.sql d]
  | delete s => do return [← s.sql d]
  | merge s => s.sql d

end Warehouse.Sql
