/-
Module: Warehouse.Sql.Script
Purpose: Statements put together into one text.
Trusted boundary: none
Main exports: scriptText
-/
import Warehouse.Text.Blank

namespace Warehouse.Sql

/-- A statement without blanks at its end, and with a semicolon there if it has none. -/
def terminated (statement : String) : String :=
  let s := Text.stripEnd statement
  if s.toList.getLast? = some ';' then s else s ++ ";"

/-- The statements, each terminated, with an empty line between each two. -/
def scriptText (statements : List String) : String :=
  "\n\n".intercalate (statements.map terminated)

end Warehouse.Sql
