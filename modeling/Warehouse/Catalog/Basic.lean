/-
Module: Warehouse.Catalog.Basic
Purpose: A catalog whose references all resolve. It is made from a document in four steps, each of
  which may refuse it: every dataset has a declared schema and a key of its own; what a query tree
  reads exists and becomes an input of the dataset that has the tree; every dataset that wants
  history gets a shadow, or has its declared one brought up to date; every input exists.
Trusted boundary: none
Main exports: CatalogDocument, Catalog, Catalog.ofDocument, Catalog.get, Catalog.wantsHistory,
  Catalog.shadowOf?
-/
import Warehouse.Catalog.Error
import Warehouse.Catalog.Shadow

namespace Warehouse

/-- A catalog as it is written down. -/
structure CatalogDocument where
  schemas : List Schema
  datasets : List Dataset
  queryNodes : List QueryNode
deriving DecidableEq, Repr

/-- A catalog. Of two schemas of one name the later counts; the datasets have distinct keys and are
in the order of the document, generated ones last. -/
structure Catalog where
  schemas : List Schema
  datasets : List Dataset
  queryNodes : List QueryNode
deriving DecidableEq, Repr

namespace Catalog

/-- The schema of that name. -/
def schema? (c : Catalog) (name : String) : Option Schema :=
  c.schemas.reverse.find? fun s => s.name = name

/-- The dataset of that key. -/
def get? (c : Catalog) (key : DatasetKey) : Option Dataset := c.datasets.find? fun d => d.key = key

/-- Whether there is a dataset of that key. -/
def contains (c : Catalog) (key : DatasetKey) : Bool := (c.get? key).isSome

/-- The dataset of that key, or the report that there is none. -/
def get (c : Catalog) (key : DatasetKey) : Except CatalogError Dataset :=
  match c.get? key with
  | some d => .ok d
  | none => .error (.unknownDataset key)

/-- The dataset whose key is written as `text`. -/
def getByName (c : Catalog) (text : String) : Except CatalogError Dataset :=
  match DatasetKey.parse? text with
  | some key => c.get key
  | none => .error (.invalidKey text)

/-- The schema of a dataset, or the report that there is none. -/
def schemaOf (c : Catalog) (d : Dataset) : Except CatalogError Schema :=
  match c.schema? d.schema with
  | some s => .ok s
  | none => .error (.unknownSchema d.key d.schema)

/-- The keys of all datasets, in ascending order. -/
def keys (c : Catalog) : List DatasetKey := DatasetKey.sort (c.datasets.map Dataset.key)

/-- The query trees. -/
def queryGraph (c : Catalog) : QueryGraph := ⟨c.queryNodes⟩

/-- The dataset that keeps the history of `base`: the first that says so. -/
def shadowOf? (c : Catalog) (base : DatasetKey) : Option Dataset :=
  c.datasets.find? fun d => d.histOf? = some base

/-- Whether the history of a dataset is kept: always under the historizing strategy, and under the
merging one if the dataset says so or, where it says nothing, its schema does. -/
def wantsHistory (c : Catalog) (d : Dataset) : Bool :=
  match d.strategy with
  | .historize => true
  | .merge =>
    match d.historize? with
    | some wanted => wanted
    | none => match c.schema? d.schema with
      | some s => s.defaultHistorize
      | none => false
  | _ => false

/-!
### From a document
-/

/-- Adds a dataset whose schema exists and whose key is new. -/
def insert (c : Catalog) (d : Dataset) : Except CatalogError Catalog :=
  if (c.schema? d.schema).isNone then .error (.unknownSchema d.key d.schema)
  else if c.contains d.key then .error (.duplicateDataset d.key)
  else .ok { c with datasets := c.datasets ++ [d] }

/-- Adds datasets one after another. -/
def insertAll (c : Catalog) : List Dataset → Except CatalogError Catalog
  | [] => .ok c
  | d :: rest => do (← c.insert d).insertAll rest

/-- The keys with those of `more` that are not among them yet, in their order. -/
def addMissing (keys more : List DatasetKey) : List DatasetKey :=
  more.foldl (fun ks k => if ks.contains k then ks else ks ++ [k]) keys

/-- A dataset with what its query tree reads among its inputs. -/
def linkSources (g : QueryGraph) (d : Dataset) : Dataset :=
  match d.queryRoot? with
  | none => d
  | some root => { d with inputs := addMissing d.inputs (g.sourceDatasets root) }

/-- The first node, with its dataset, that names a dataset which does not exist. -/
def danglingReference? (c : Catalog) : Option (NodeId × DatasetKey) :=
  c.queryGraph.references.find? fun (_, key) => ! c.contains key

/-- Makes what query trees read an input of the datasets that have them. -/
def linkQuerySources (c : Catalog) : Except CatalogError Catalog :=
  match c.danglingReference? with
  | some (node, key) => .error (.unknownSource key node)
  | none => .ok { c with datasets := c.datasets.map (linkSources c.queryGraph) }

/-- The largest number of a dataset, 0 if there is none. -/
def lastId (c : Catalog) : UInt32 := c.datasets.foldl (fun m d => max m d.id) 0

/-- One more than the largest number, or the report that this is no number of 32 bits. -/
def nextId (c : Catalog) : Except CatalogError UInt32 :=
  if c.lastId.toNat + 1 < UInt32.size then .ok (c.lastId + 1) else .error .numbersExhausted

/-- A declared shadow brought up to date with what is derived from its base. -/
def resync (base : DatasetKey) (derived existing : Dataset) : Dataset :=
  { existing with
    columns := derived.columns
    naturalKeys := derived.naturalKeys
    histOf? := derived.histOf?
    inputs := if existing.inputs.contains base then existing.inputs
      else base :: existing.inputs }

/-- Gives the dataset of that key a shadow. The next number is computed in any case, also where the
shadow is declared and keeps its own. -/
def syncShadow (c : Catalog) (base : DatasetKey) : Except CatalogError Catalog := do
  let number ← c.nextId
  let derived := deriveShadow (← c.get base) number
  if c.contains derived.key then
    return { c with datasets := c.datasets.map fun d =>
      if d.key = derived.key then resync base derived d else d }
  else c.insert derived

/-- Gives each dataset of those keys a shadow, one after another. -/
def syncShadowsOf (c : Catalog) : List DatasetKey → Except CatalogError Catalog
  | [] => .ok c
  | base :: rest => do (← c.syncShadow base).syncShadowsOf rest

/-- The datasets that want history and are no shadows themselves. -/
def historizedKeys (c : Catalog) : List DatasetKey :=
  (c.datasets.filter fun d => ! d.isShadow && c.wantsHistory d).map Dataset.key

/-- The first input that does not exist, and the dataset that has it. -/
def danglingInput? (c : Catalog) : Option (DatasetKey × DatasetKey) :=
  c.datasets.findSome? fun d => (d.inputs.find? fun u => ! c.contains u).map fun u => (u, d.key)

/-- The catalog that a document describes. -/
def ofDocument (doc : CatalogDocument) : Except CatalogError Catalog := do
  let empty : Catalog := ⟨doc.schemas, [], doc.queryNodes⟩
  let declared ← empty.insertAll doc.datasets
  let linked ← declared.linkQuerySources
  let synced ← linked.syncShadowsOf linked.historizedKeys
  match synced.danglingInput? with
  | some (input, dataset) => .error (.unknownInput input dataset)
  | none => .ok synced

/-- The document that describes a catalog. -/
def toDocument (c : Catalog) : CatalogDocument := ⟨c.schemas, c.datasets, c.queryNodes⟩

end Catalog

end Warehouse
