/-
Module: Warehouse.Catalog.Dataset
Purpose: What a catalog says about schemas, datasets and columns, and the questions a load asks of a
  single one of them: its columns in order, those that carry business data, and which column of an
  input dataset feeds which of its own.
Trusted boundary: none
Main exports: Layer, Schema, LoadStrategy, Materialization, SystemRole, Lineage, Column,
  SourceObject, Dataset
-/
import Warehouse.Catalog.Key
import Warehouse.Sql.DataType

namespace Warehouse

/-- How far data has come: as delivered, staged, integrated, enriched, or ready to be served. -/
inductive Layer where
  | raw
  | stage
  | rawcore
  | bizcore
  | serving
  | other
deriving DecidableEq, Repr

namespace Layer

def text : Layer → String
  | raw => "raw"
  | stage => "stage"
  | rawcore => "rawcore"
  | bizcore => "bizcore"
  | serving => "serving"
  | other => "other"

/-- The layer of a written form; anything else is no layer in particular. -/
def ofText : String → Layer
  | "raw" => raw
  | "stage" => stage
  | "rawcore" => rawcore
  | "bizcore" => bizcore
  | "serving" => serving
  | _ => other

/-- The layer that the name of a schema suggests, in any case. -/
def ofSchemaName (name : String) : Layer :=
  match Text.asciiLower name with
  | "staging" => stage
  | lower => ofText lower

end Layer

/-- A schema of the warehouse. -/
structure Schema where
  name : String
  layer : Layer
  surrogateKeysEnabled : Bool
  defaultHistorize : Bool
  generateLayer : Bool
deriving DecidableEq, Repr

/-- The layer of a schema: the declared one, else the one its name suggests. -/
def Schema.effectiveLayer (s : Schema) : Layer :=
  match s.layer with
  | .other => Layer.ofSchemaName s.name
  | layer => layer

/-- How new data gets into a table. -/
inductive LoadStrategy where
  | full
  | append
  | merge
  | snapshot
  | historize
deriving DecidableEq, Repr

/-- What a dataset is in the warehouse. -/
inductive Materialization where
  | table
  | view
  | incremental
  | externalPassthrough
deriving DecidableEq, Repr

/-- What a column is for, if it is not plain data. -/
inductive SystemRole where
  | surrogateKey
  | businessKey
  | foreignKey
  | loadRunId
  | loadedAt
  | rowHash
  | versionStartedAt
  | versionEndedAt
  | versionState
deriving DecidableEq, Repr

/-- Keys of the business and references to them are data; the other roles belong to the platform. -/
def SystemRole.isBusiness : SystemRole → Bool
  | businessKey | foreignKey => true
  | _ => false

/-- A column of an input dataset that feeds a column. -/
structure Lineage where
  input : DatasetKey
  column : String
  active : Bool
deriving DecidableEq, Repr

/-- A column. Its type is kept as it is spelled. -/
structure Column where
  name : String
  datatype : String
  nullable : Bool
  ordinal : UInt32
  role? : Option SystemRole
  formerNames : List String
  surrogateExpression? : Option String
  lineage : List Lineage
deriving DecidableEq, Repr

namespace Column

/-- A column that is only a name, a type and a place. -/
def plain (name datatype : String) (ordinal : UInt32) : Column :=
  { name, datatype, nullable := true, ordinal, role? := none, formerNames := [],
    surrogateExpression? := none, lineage := [] }

/-- The logical type, if the spelling names one. -/
def type? (c : Column) : Option Sql.DataType := Sql.DataType.parse? c.datatype

/-- Whether the column holds data of the business. -/
def isBusiness (c : Column) : Bool :=
  match c.role? with
  | none => true
  | some role => role.isBusiness

/-- The column of `input` that feeds this one: the first active one. -/
def sourceIn? (c : Column) (input : DatasetKey) : Option String :=
  (c.lineage.find? fun l => l.active && l.input = input).map Lineage.column

end Column

/-- A table outside the warehouse. -/
structure SourceObject where
  system : String
  schema : Option String
  table : String
deriving DecidableEq, Repr

def SourceObject.display (s : SourceObject) : String :=
  match s.schema with
  | some schema => s.system ++ ":" ++ schema ++ "." ++ s.table
  | none => s.system ++ ":" ++ s.table

/-- The number of a node of the query trees. -/
abbrev NodeId := UInt32

/-- A dataset of the warehouse. -/
structure Dataset where
  id : UInt32
  schema : String
  name : String
  strategy : LoadStrategy
  materialization : Materialization
  historize? : Option Bool
  naturalKeys : List String
  formerNames : List String
  handleDeletes : Bool
  incrementalFilter? : Option String
  inputs : List DatasetKey
  sources : List SourceObject
  columns : List Column
  queryRoot? : Option NodeId
  histOf? : Option DatasetKey
deriving DecidableEq, Repr

namespace Dataset

/-- The name it is known by. -/
def key (d : Dataset) : DatasetKey := ⟨d.schema, d.name⟩

/-- Whether it keeps the history of another dataset. -/
def isShadow (d : Dataset) : Bool := d.histOf?.isSome

/-- The columns in the order of their ordinals; those of one ordinal keep their order. -/
def orderedColumns (d : Dataset) : List Column :=
  d.columns.mergeSort fun a b => a.ordinal ≤ b.ordinal

/-- The column of that name, whatever the case of ASCII letters. -/
def column? (d : Dataset) (name : String) : Option Column :=
  d.columns.find? fun c => Text.sameIgnoringAsciiCase c.name name

/-- The column with that role. -/
def columnWithRole? (d : Dataset) (role : SystemRole) : Option Column :=
  d.columns.find? fun c => c.role? = some role

/-- The columns that hold data of the business, in order. -/
def businessColumns (d : Dataset) : List Column := d.orderedColumns.filter Column.isBusiness

/-- The dataset it is mainly read from. -/
def primaryInput? (d : Dataset) : Option DatasetKey := d.inputs.head?

/-- Each input column in small letters, with the column that it feeds. The pairs are in the order of
the columns; where two columns are fed by one, the later pair counts. -/
def lineageMap (d : Dataset) (input : DatasetKey) : List (String × String) :=
  d.columns.filterMap fun c => (c.sourceIn? input).map fun source =>
    (Text.asciiLower source, c.name)

end Dataset

/-- What a map made of pairs in order says about a key: the last pair counts. -/
def lookupLast {β : Type} (pairs : List (String × β)) (key : String) : Option β :=
  pairs.reverse.lookup key

end Warehouse
