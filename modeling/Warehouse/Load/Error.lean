/-
Module: Warehouse.Load.Error
Purpose: Why a dataset cannot be loaded. No such reason goes away by trying again.
Trusted boundary: none
Main exports: LoadError, LoadError.message
-/
import Warehouse.Catalog.Error
import Warehouse.Sql.Error

namespace Warehouse

open Sql (Dialect SqlError)

/-- Why a dataset cannot be loaded. -/
inductive LoadError where
  | missingNaturalKeys (dataset : DatasetKey)
  /-- The dataset is kept by someone else. -/
  | externalDataset (dataset : DatasetKey)
  /-- The dataset keeps the history of none. -/
  | notAShadow (dataset : DatasetKey)
  | deleteDetectionMissing (dialect : Dialect)
  | noSource (dataset : DatasetKey)
  | missingLineage (dataset : DatasetKey) (column : String) (input : Option DatasetKey)
  | surrogateKeyMismatch (dataset : DatasetKey) (column : String) (hashed naturalKeys : List String)
  | surrogateKeysDisabled (dataset : DatasetKey) (column schema : String)
  | notGenerated (dataset : DatasetKey) (schema : String)
  | unresolvedType (dataset : DatasetKey) (column datatype : String)
  | catalog (cause : CatalogError)
  | sql (cause : SqlError)
deriving DecidableEq, Repr

namespace LoadError

/-- Whether another attempt could succeed. -/
def isRetriable (_ : LoadError) : Bool := false

def message : LoadError → String
  | missingNaturalKeys dataset =>
    s!"dataset '{dataset.display}' uses merge but declares no natural key fields"
  | externalDataset dataset =>
    s!"dataset '{dataset.display}' cannot be loaded with strategy 'external_passthrough'"
  | notAShadow dataset => s!"dataset '{dataset.display}' cannot be loaded with strategy 'historize'"
  | deleteDetectionMissing dialect => s!"{dialect.name} does not implement delete detection"
  | noSource dataset =>
    s!"dataset '{dataset.display}' has no upstream, source or query to load from"
  | missingLineage dataset column input =>
    let input := (input.map DatasetKey.display).getD ""
    s!"column '{column}' of '{dataset.display}' has no active lineage from '{input}'"
  | surrogateKeyMismatch dataset column hashed naturalKeys =>
    s!"surrogate key '{column}' of '{dataset.display}' hashes [" ++ ", ".intercalate hashed ++
      "] but the natural key is [" ++ ", ".intercalate naturalKeys ++ "]"
  | surrogateKeysDisabled dataset column schema =>
    s!"dataset '{dataset.display}' declares surrogate key '{column}' but schema '{schema}' disables " ++
      "surrogate keys"
  | notGenerated dataset schema =>
    s!"dataset '{dataset.display}' has no query tree and schema '{schema}' does not generate loads"
  | unresolvedType dataset column datatype =>
    s!"column '{column}' of '{dataset.display}' has unresolvable type '{datatype}'"
  | catalog cause => cause.message
  | sql cause => cause.message

end LoadError

/-- A catalog's report as a reason not to load. -/
def liftCatalog {α : Type} (r : Except CatalogError α) : Except LoadError α := r.mapError .catalog

/-- What SQL cannot say as a reason not to load. -/
def liftSql {α : Type} (r : Except SqlError α) : Except LoadError α := r.mapError .sql

/-- What a hash cannot be made of as a reason not to load. -/
def liftSurrogate {α : Type} (r : Except Sql.SurrogateError α) : Except LoadError α :=
  r.mapError fun e => .sql (.surrogate e)

end Warehouse
