/-
Module: Warehouse.Sql.Definition
Purpose: Statements that define schemas, tables and views, as data and as text. The two Microsoft
  engines have no `IF NOT EXISTS` and no `RENAME`: there a guard that asks the system catalog stands
  before the statement, and a stored procedure renames, both of which take quoted names inside
  national strings.
Trusted boundary: none
Main exports: ColumnSpec, Definition, Definition.tokens, Definition.sql
-/
import Warehouse.Sql.Expr.Tokens

namespace Warehouse.Sql

open Token (space newline)

/-- A column as a table definition has it. -/
structure ColumnSpec where
  name : String
  type : DataType
  nullable : Bool
deriving DecidableEq, Repr

/-- A statement that defines or redefines something. -/
inductive Definition where
  | createSchema (schema : String)
  | createTable (table : ObjectName) (columns : List ColumnSpec)
  | addColumn (table : ObjectName) (column : ColumnSpec)
  | renameColumn (table : ObjectName) (column newName : String)
  | renameTable (table : ObjectName) (newName : String)
  | alterColumnType (table : ObjectName) (column : String) (type : DataType)
  | createView (view : ObjectName) (query : Plan)
  | truncate (table : ObjectName)

namespace ColumnSpec

/-- The name and the type of a column. -/
def typeTokens (d : Dialect) (c : ColumnSpec) : List Token :=
  [.name c.name, space, .raw (d.columnType c.type)]

/-- The name and the type of a column, and whether it must have a value. -/
def tokens (d : Dialect) (c : ColumnSpec) : List Token :=
  c.typeTokens d ++ (if c.nullable then [] else [space, word .not, space, word .null])

end ColumnSpec

namespace Definition

/-- A national string literal, in which every name is safe. -/
def nationalString (s : String) : Token := .raw (StringStyle.national.quote s)

/-- A table's name with its parts between brackets, as a text that a procedure can be given. -/
def bracketed (n : ObjectName) : String :=
  match n.schema with
  | some s => QuoteMarks.bracket.quote s ++ "." ++ QuoteMarks.bracket.quote n.name
  | none => QuoteMarks.bracket.quote n.name

/-- The beginning of every `ALTER TABLE`. -/
def alterTable (table : ObjectName) : List Token :=
  phrase [.alter, .table] ++ [space, table.token, space]

/-- Renames through the stored procedure; the last argument says what is renamed if it is no
table. -/
def renameByProcedure (object newName : String) (isColumn : Bool) : List Token :=
  [.raw "EXEC sp_rename ", nationalString object, sign .comma, space, nationalString newName] ++
    (if isColumn then [sign .comma, space, .raw "'COLUMN'"] else [])

/-- Does nothing unless the table is missing. -/
def missingTableGuard (table : ObjectName) : List Token :=
  [.raw "IF OBJECT_ID(", nationalString (bracketed table), .raw ", N'U') IS NULL", space]

/-- The words that make a statement harmless when its object is there already. -/
def ifNotExists : List Token := phrase [.if, .not, .exists]

/-- The tokens that create a schema unless it exists, where the dialect can. -/
def createSchemaTokens? (d : Dialect) (schema : String) : Option (List Token) :=
  match d with
  | .oracle => none
  | .tsql | .fabric =>
    some [.raw "IF NOT EXISTS (SELECT 1 FROM sys.schemas WHERE name = ", nationalString schema,
      .raw ") EXEC(", nationalString ("CREATE SCHEMA " ++ QuoteMarks.bracket.quote schema),
      .raw ")"]
  | _ => some (phrase [.create, .schema] ++ space :: ifNotExists ++ [space, .name schema])

/-- The tokens that create a table unless it exists; Oracle has no way to say the latter. -/
def createTableTokens (d : Dialect) (table : ObjectName) (columns : List ColumnSpec) : List Token :=
  let lines := columns.map fun c => .indent 1 :: c.tokens d
  (if d.isMicrosoft then missingTableGuard table else []) ++
    phrase [.create, .table] ++ [space] ++
    (if d.hasIfNotExists then ifNotExists ++ [space] else []) ++
    [table.token, space, sign .open, newline] ++
    (lines.intersperse [sign .comma, newline]).flatten ++ [newline, sign .close]

/-- The tokens that rename a table. Some dialects take an unqualified new name for one in the
default schema, and get it qualified. -/
def renameTableTokens (d : Dialect) (table : ObjectName) (newName : String) : List Token :=
  match d with
  | .tsql | .fabric => renameByProcedure (bracketed table) newName false
  | .mysql | .snowflake | .databricks =>
    alterTable table ++ phrase [.rename, .to] ++ [space, .qualified table.schema newName]
  | _ => alterTable table ++ phrase [.rename, .to] ++ [space, .name newName]

def renameColumnTokens (d : Dialect) (table : ObjectName) (column newName : String) : List Token :=
  if d.isMicrosoft then
    renameByProcedure (bracketed table ++ "." ++ QuoteMarks.bracket.quote column) newName true
  else alterTable table ++ phrase [.rename, .column] ++
    [space, .name column, space, word .to, space, .name newName]

/-- The tokens that change a column's type, where the dialect can. -/
def alterColumnTypeTokens? (d : Dialect) (table : ObjectName) (column : String) (type : DataType) :
    Option (List Token) :=
  let typeName := d.columnType type
  let alter := phrase [.alter, .column] ++ [space, .name column, space]
  match d with
  | .fabric | .bigquery | .databricks => none
  | .tsql => some (alterTable table ++ alter ++ [.raw typeName])
  | .snowflake => some (alterTable table ++ alter ++ [.raw ("SET DATA TYPE " ++ typeName)])
  | .mysql => some (alterTable table ++
      [.raw "MODIFY", space, word .column, space, .name column, space, .raw typeName])
  | .oracle => some (alterTable table ++ [.raw "MODIFY", space] ++
      parenthesised [.name column, space, .raw typeName])
  | _ => some (alterTable table ++ alter ++ [.raw ("TYPE " ++ typeName)])

def tokens (d : Dialect) : Definition → Except SqlError (List Token)
  | createSchema schema =>
    match createSchemaTokens? d schema with
    | some ts => .ok ts
    | none => .error (.unsupported d .createSchema)
  | createTable table columns =>
    if columns.isEmpty then .error (.empty .columnList) else .ok (createTableTokens d table columns)
  | addColumn table column =>
    .ok (alterTable table ++ [word .add, space] ++
      (if d.addColumnKeyword then [word .column, space] else []) ++ column.typeTokens d)
  | renameColumn table column newName => .ok (renameColumnTokens d table column newName)
  | renameTable table newName => .ok (renameTableTokens d table newName)
  | alterColumnType table column type =>
    match alterColumnTypeTokens? d table column type with
    | some ts => .ok ts
    | none => .error (.unsupported d .alterColumnType)
  | createView view query => do
    let body ← query.tokens d
    return [.raw d.createViewKeyword, space, view.token, space, word .as, newline] ++ body
  | truncate table => .ok (phrase [.truncate, .table] ++ [space, table.token])

def sql (d : Dialect) (s : Definition) : Except SqlError String := do
  return render d (← s.tokens d)

end Definition

end Warehouse.Sql
