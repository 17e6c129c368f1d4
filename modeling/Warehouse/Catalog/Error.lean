/-
Module: Warehouse.Catalog.Error
Purpose: What can be wrong with a catalog or with a question put to it.
Trusted boundary: none
Main exports: Issue, CatalogError, CatalogError.message
-/
import Warehouse.Catalog.QueryNode

namespace Warehouse

/-- What is wrong with a node of a query tree. Column names are given as far as the report shows
them. -/
inductive IssueCause where
  | unknownDataset (key : DatasetKey)
  | selectWithoutInput
  | missingInput (label : String)
  | columnNotFound (column : String)
  | groupKeyNotFound (key : String)
  | measureColumnNotFound (measure column : String)
  | windowColumnNotFound (window column : String)
  | duplicateOutput (column : String)
  | unionWithoutBranches
  | branchMismatch (branch : NodeId) (columns : List String) (first : NodeId)
    (expected : List String)
deriving DecidableEq, Repr

def IssueCause.message : IssueCause → String
  | unknownDataset key => s!"unknown dataset '{key.display}'"
  | selectWithoutInput => "select has no input"
  | missingInput label => s!"{label} requires an input node"
  | columnNotFound column => s!"column '{column}' not found in input"
  | groupKeyNotFound key => s!"group key '{key}' not found in input"
  | measureColumnNotFound measure column => s!"measure '{measure}' reads missing column '{column}'"
  | windowColumnNotFound window column => s!"window '{window}' references missing column '{column}'"
  | duplicateOutput column => s!"duplicate output column '{column}'"
  | unionWithoutBranches => "union has no branches"
  | branchMismatch branch columns first expected =>
    s!"union branch {branch} outputs [" ++ ", ".intercalate columns ++
      s!"] but branch {first} outputs [" ++ ", ".intercalate expected ++ "]"

/-- A fault of one node. -/
structure Issue where
  node : NodeId
  cause : IssueCause
deriving DecidableEq, Repr

def Issue.message (i : Issue) : String := s!"ERROR: node {i.node}: " ++ i.cause.message

/-- Why a catalog cannot be used, or not in the way that is asked for. -/
inductive CatalogError where
  | unknownDataset (key : DatasetKey)
  /-- A dataset is said to be read from one that does not exist. -/
  | unknownInput (input dataset : DatasetKey)
  /-- A query node reads a dataset that does not exist. -/
  | unknownSource (dataset : DatasetKey) (node : NodeId)
  | unknownSchema (dataset : DatasetKey) (schema : String)
  | duplicateDataset (key : DatasetKey)
  | invalidKey (text : String)
  | unknownQueryNode (node : NodeId)
  | queryCycle (node : NodeId)
  | invalidContract (node : NodeId) (issues : List Issue)
  /-- A shadow needs a number, and the largest one that there is has been given away. -/
  | numbersExhausted
deriving DecidableEq, Repr

def CatalogError.message : CatalogError → String
  | unknownDataset key => s!"unknown dataset '{key.display}'"
  | unknownInput input dataset =>
    s!"unknown dataset '{input.display} (upstream of {dataset.display})'"
  | unknownSource dataset node =>
    s!"unknown dataset '{dataset.display} (read by query node {node})'"
  | unknownSchema dataset schema =>
    s!"dataset '{dataset.display}' belongs to unknown schema '{schema}'"
  | duplicateDataset key => s!"dataset '{key.display}' is declared more than once"
  | invalidKey text => s!"invalid dataset key '{text}', expected schema.name"
  | unknownQueryNode node => s!"unknown query node {node}"
  | queryCycle node => s!"cycle detected at query node {node}"
  | invalidContract node issues =>
    s!"query node {node} has an invalid contract: " ++ "; ".intercalate (issues.map Issue.message)
  | numbersExhausted => "attempt to add with overflow"

end Warehouse
