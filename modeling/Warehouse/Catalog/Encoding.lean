/-
Module: Warehouse.Catalog.Encoding
Purpose: The JSON form of a catalog, written and read. What is absent or empty is left out when
  written and has its usual value when read; a field that is not known is passed over. The kind of a
  query node and the fields of that kind stand among the fields of the node itself, which is
  therefore read whole before its kind is looked at.
Trusted boundary: none
Main exports: Dataset.toJson, Schema.toJson, CatalogDocument.decode, Catalog.ofJsonText
-/
import Warehouse.Catalog.Basic
import Warehouse.Json.Record

namespace Warehouse

open Json (Decoder Fields Failure)

/-! ### Names of enumerated values -/

namespace LoadStrategy

def text : LoadStrategy → String
  | full => "full"
  | append => "append"
  | merge => "merge"
  | snapshot => "snapshot"
  | historize => "historize"

def ofText? : String → Option LoadStrategy
  | "full" => some full
  | "append" => some append
  | "merge" => some merge
  | "snapshot" => some snapshot
  | "historize" => some historize
  | _ => none

end LoadStrategy

namespace Materialization

def text : Materialization → String
  | table => "table"
  | view => "view"
  | incremental => "incremental"
  | externalPassthrough => "external_passthrough"

def ofText? : String → Option Materialization
  | "table" => some table
  | "view" => some view
  | "incremental" => some incremental
  | "external_passthrough" => some externalPassthrough
  | _ => none

end Materialization

namespace SystemRole

def text : SystemRole → String
  | surrogateKey => "surrogate_key"
  | businessKey => "business_key"
  | foreignKey => "foreign_key"
  | loadRunId => "load_run_id"
  | loadedAt => "loaded_at"
  | rowHash => "row_hash"
  | versionStartedAt => "version_started_at"
  | versionEndedAt => "version_ended_at"
  | versionState => "version_state"

/-- Every role, once. -/
def all : List SystemRole :=
  [surrogateKey, businessKey, foreignKey, loadRunId, loadedAt, rowHash, versionStartedAt,
   versionEndedAt, versionState]

def ofText? (s : String) : Option SystemRole := all.find? fun r => r.text = s

end SystemRole

/-! ### Writing -/

/-- A member that is left out where there is no value. -/
def optionalMember (name : String) (value : Option Json) : List (String × Json) :=
  match value with
  | some j => [(name, j)]
  | none => []

/-- A member that is left out where the list is empty. -/
def listMember (name : String) (items : List Json) : List (String × Json) :=
  if items.isEmpty then [] else [(name, .array items)]

def DatasetKey.toJson (k : DatasetKey) : Json := .string k.display

def idToJson (id : UInt32) : Json := .nat id.toNat

def Schema.toJson (s : Schema) : Json := .object [
  ("name", .string s.name),
  ("layer", .string s.layer.text),
  ("surrogate_keys_enabled", .bool s.surrogateKeysEnabled),
  ("default_historize", .bool s.defaultHistorize),
  ("generate_layer", .bool s.generateLayer)]

def Lineage.toJson (l : Lineage) : Json := .object [
  ("upstream", l.input.toJson),
  ("column", .string l.column),
  ("active", .bool l.active)]

def Column.toJson (c : Column) : Json := .object ([
  ("name", .string c.name),
  ("datatype", .string c.datatype),
  ("nullable", .bool c.nullable),
  ("ordinal", idToJson c.ordinal)] ++
  optionalMember "system_role" (c.role?.map fun r => .string r.text) ++
  listMember "former_names" (c.formerNames.map .string) ++
  optionalMember "surrogate_expression" (c.surrogateExpression?.map .string) ++
  listMember "lineage" (c.lineage.map Lineage.toJson))

def SourceObject.toJson (s : SourceObject) : Json := .object (
  [("system", .string s.system)] ++
  optionalMember "schema" (s.schema.map .string) ++
  [("table", .string s.table)])

def Dataset.toJson (d : Dataset) : Json := .object ([
  ("id", idToJson d.id),
  ("schema", .string d.schema),
  ("name", .string d.name),
  ("incremental_strategy", .string d.strategy.text),
  ("materialization", .string d.materialization.text)] ++
  optionalMember "historize" (d.historize?.map .bool) ++
  listMember "natural_key_fields" (d.naturalKeys.map .string) ++
  listMember "former_names" (d.formerNames.map .string) ++
  [("handle_deletes", .bool d.handleDeletes)] ++
  optionalMember "incremental_filter" (d.incrementalFilter?.map .string) ++
  listMember "upstreams" (d.inputs.map DatasetKey.toJson) ++
  listMember "sources" (d.sources.map SourceObject.toJson) ++
  [("columns", .array (d.columns.map Column.toJson))] ++
  optionalMember "query_root" (d.queryRoot?.map idToJson) ++
  optionalMember "hist_of" (d.histOf?.map DatasetKey.toJson))

/-! ### Reading -/

def DatasetKey.decode : Decoder DatasetKey := Decoder.stringWith DatasetKey.parse?

def Schema.decode : Decoder Schema := Decoder.record
  (Schema.mk <$> Fields.required "name" Decoder.string
    <*> Fields.optional "layer" Layer.other (Decoder.name fun s => some (Layer.ofText s))
    <*> Fields.optional "surrogate_keys_enabled" true Decoder.bool
    <*> Fields.optional "default_historize" false Decoder.bool
    <*> Fields.optional "generate_layer" true Decoder.bool)

def Lineage.decode : Decoder Lineage := Decoder.record
  (Lineage.mk <$> Fields.required "upstream" DatasetKey.decode
    <*> Fields.required "column" Decoder.string
    <*> Fields.optional "active" true Decoder.bool)

def Column.decode : Decoder Column := Decoder.record
  (Column.mk <$> Fields.required "name" Decoder.string
    <*> Fields.required "datatype" Decoder.string
    <*> Fields.optional "nullable" true Decoder.bool
    <*> Fields.optional "ordinal" 0 Decoder.uint32
    <*> Fields.optional "system_role" none (Decoder.nullable (Decoder.name SystemRole.ofText?))
    <*> Fields.optional "former_names" [] (Decoder.list Decoder.string)
    <*> Fields.optional "surrogate_expression" none (Decoder.nullable Decoder.string)
    <*> Fields.optional "lineage" [] (Decoder.list Lineage.decode))

def SourceObject.decode : Decoder SourceObject := Decoder.record
  (SourceObject.mk <$> Fields.required "system" Decoder.string
    <*> Fields.optional "schema" none (Decoder.nullable Decoder.string)
    <*> Fields.required "table" Decoder.string)

def Dataset.decode : Decoder Dataset := Decoder.record
  (Dataset.mk <$> Fields.required "id" Decoder.uint32
    <*> Fields.required "schema" Decoder.string
    <*> Fields.required "name" Decoder.string
    <*> Fields.optional "incremental_strategy" LoadStrategy.full (Decoder.name LoadStrategy.ofText?)
    <*> Fields.optional "materialization" Materialization.table
      (Decoder.name Materialization.ofText?)
    <*> Fields.optional "historize" none (Decoder.nullable Decoder.bool)
    <*> Fields.optional "natural_key_fields" [] (Decoder.list Decoder.string)
    <*> Fields.optional "former_names" [] (Decoder.list Decoder.string)
    <*> Fields.optional "handle_deletes" false Decoder.bool
    <*> Fields.optional "incremental_filter" none (Decoder.nullable Decoder.string)
    <*> Fields.optional "upstreams" [] (Decoder.list DatasetKey.decode)
    <*> Fields.optional "sources" [] (Decoder.list SourceObject.decode)
    <*> Fields.optional "columns" [] (Decoder.list Column.decode)
    <*> Fields.optional "query_root" none (Decoder.nullable Decoder.uint32)
    <*> Fields.optional "hist_of" none (Decoder.nullable DatasetKey.decode))

def ProjectedColumn.decode : Decoder ProjectedColumn := Decoder.record
  (ProjectedColumn.mk <$> Fields.required "name" Decoder.string
    <*> Fields.optional "source_column" none (Decoder.nullable Decoder.string)
    <*> Fields.optional "expr" none (Decoder.nullable Decoder.string))

def Measure.decode : Decoder Measure := Decoder.record
  (Measure.mk <$> Fields.required "name" Decoder.string
    <*> Fields.required "function" Decoder.string
    <*> Fields.optional "column" none (Decoder.nullable Decoder.string))

def WindowColumn.decode : Decoder WindowColumn := Decoder.record
  (WindowColumn.mk <$> Fields.required "name" Decoder.string
    <*> Fields.optional "partition_by" [] (Decoder.list Decoder.string)
    <*> Fields.optional "order_by" [] (Decoder.list Decoder.string)
    <*> Fields.optional "descending" false Decoder.bool)

namespace NodeKind

def decodeSelect : Decoder NodeKind := Decoder.record
  (select <$> Fields.optional "from" none (Decoder.nullable DatasetKey.decode)
    <*> Fields.optional "columns" [] (Decoder.list ProjectedColumn.decode)
    <*> Fields.optional "filter" none (Decoder.nullable Decoder.string))

def decodeAggregate : Decoder NodeKind := Decoder.record
  (aggregate <$> Fields.required "group_keys" (Decoder.list Decoder.string)
    <*> Fields.optional "measures" [] (Decoder.list Measure.decode))

def decodeUnion : Decoder NodeKind := Decoder.record
  (union <$> Fields.required "branches" (Decoder.list Decoder.uint32)
    <*> Fields.optional "all" false Decoder.bool)

def decodeWindow : Decoder NodeKind := Decoder.record
  (window <$> Fields.required "columns" (Decoder.list WindowColumn.decode))

/-- The reader for a kind, which is given by its name or its number. -/
def decoderOfKind : Decoder (Decoder NodeKind) := Decoder.choice
  [("select", decodeSelect), ("aggregate", decodeAggregate), ("union", decodeUnion),
    ("window", decodeWindow)]

end NodeKind

namespace QueryNode

/-- Reads the number of a node and the number of its input. Its other members are read too, whatever
they are, since those of its kind are among them. -/
def decodeOwn : Decoder (NodeId × Option NodeId) := Decoder.object Decoder.any
  (Prod.mk <$> Fields.required "id" Decoder.uint32
    <*> Fields.optional "input_node" none (Decoder.nullable Decoder.uint32))

/-- Reads a node, which stands as an object. Its own members come first, then its kind, which says
what else belongs to it. -/
def decode : Decoder QueryNode := do
  let (id, input) ← Decoder.lookahead decodeOwn
  let kind ← Decoder.again do
    let decodeKind ← Decoder.lookahead
      (Decoder.object Decoder.ignore (Fields.required "kind" NodeKind.decoderOfKind))
    decodeKind
  return ⟨id, input, kind⟩

end QueryNode

namespace CatalogDocument

def decode : Decoder CatalogDocument := Decoder.record
  (CatalogDocument.mk <$> Fields.optional "schemas" [] (Decoder.list Schema.decode)
    <*> Fields.optional "datasets" [] (Decoder.list Dataset.decode)
    <*> Fields.optional "query_nodes" [] (Decoder.list QueryNode.decode))

end CatalogDocument

/-- Why a text gives no catalog: it is no document, or a document with a fault. -/
inductive CatalogTextError where
  | text (cause : Failure)
  | catalog (cause : CatalogError)
deriving DecidableEq, Repr

def CatalogTextError.message : CatalogTextError → String
  | text cause => "failed to parse catalog: " ++ cause.message
  | catalog cause => cause.message

def Catalog.ofJsonText (text : String) : Except CatalogTextError Catalog :=
  match Json.decode CatalogDocument.decode text with
  | .error e => .error (.text e)
  | .ok doc => (Catalog.ofDocument doc).mapError .catalog

end Warehouse
