/-
Module: Warehouse.Drift.LiveSchema
Purpose: What is in the database: schemas, tables and their columns. Names are found whatever their
  case.
Trusted boundary: none
Main exports: LiveColumn, LiveTable, LiveSchema, LiveSchema.hasTable, LiveSchema.columns,
  LiveSchema.ofJsonText
-/
import Warehouse.Catalog.Key
import Warehouse.Json.Record
import Warehouse.Text.LetterCase

namespace Warehouse

open Json (Decoder Fields Failure)

/-- A column of a table in the database. -/
structure LiveColumn where
  name : String
  datatype : String
  nullable : Bool
deriving DecidableEq, Repr

/-- A table in the database; a description may also say that there is none. -/
structure LiveTable where
  present : Bool
  columns : List LiveColumn
deriving DecidableEq, Repr

/-- The schemas, in small letters, and the tables, each under its qualified name in small letters;
of two tables of one name the later counts. -/
structure LiveSchema where
  schemas : List String
  tables : List (String × LiveTable)
deriving DecidableEq, Repr

namespace LiveSchema

/-- A database with nothing in it. -/
def empty : LiveSchema := ⟨[], []⟩

/-- The name under which a table is found. -/
def tableName (schema table : String) : String := Text.lower (schema ++ "." ++ table)

/-- The description of a table. -/
def table? (live : LiveSchema) (schema table : String) : Option LiveTable :=
  live.tables.reverse.lookup (tableName schema table)

/-- Whether there is a schema of that name. -/
def hasSchema (live : LiveSchema) (schema : String) : Bool :=
  live.schemas.contains (Text.lower schema)

/-- Whether there is a table of that name. -/
def hasTable (live : LiveSchema) (schema table : String) : Bool :=
  match live.table? schema table with
  | some t => t.present
  | none => false

/-- The columns of a table; none if there is no such table. -/
def columns (live : LiveSchema) (schema table : String) : List LiveColumn :=
  match live.table? schema table with
  | some t => if t.present then t.columns else []
  | none => []

/-- The database with one more schema. -/
def withSchema (live : LiveSchema) (schema : String) : LiveSchema :=
  { live with schemas := live.schemas ++ [Text.lower schema] }

/-- The database with a table, in its schema. -/
def withTable (live : LiveSchema) (schema table : String) (columns : List LiveColumn) :
    LiveSchema :=
  { live.withSchema schema with
    tables := live.tables ++ [(tableName schema table, ⟨true, columns⟩)] }

/-! ### Reading a description -/

def decodeColumn : Decoder LiveColumn := Decoder.record
  (LiveColumn.mk <$> Fields.required "name" Decoder.string
    <*> Fields.required "datatype" Decoder.string
    <*> Fields.optional "nullable" true Decoder.bool)

def decodeTable : Decoder LiveTable := Decoder.record
  (LiveTable.mk <$> Fields.optional "exists" true Decoder.bool
    <*> Fields.optional "columns" [] (Decoder.list decodeColumn))

def decode : Decoder LiveSchema := Decoder.record
  (LiveSchema.mk <$> Fields.optional "schemas" [] (Decoder.list Decoder.string)
    <*> Fields.optional "tables" [] (Decoder.table decodeTable))

/-- The names in small letters. Of two tables whose names differ in case only, the one whose name is
later in the order of code points counts. -/
def normalised (live : LiveSchema) : LiveSchema :=
  { schemas := live.schemas.map Text.lower
    tables := (live.tables.mergeSort fun a b => a.1 ≤ b.1).map fun (name, t) =>
      (Text.lower name, t) }

def ofJsonText (text : String) : Except Failure LiveSchema :=
  (Json.decode decode text).map normalised

end LiveSchema

end Warehouse
