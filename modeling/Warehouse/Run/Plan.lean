/-
Module: Warehouse.Run.Plan
Purpose: The plan of a run: a step for each dataset, which names what the dataset reads.
Trusted boundary: none
Main exports: RunStep, RunPlan, RunPlan.ofOrder
-/
import Warehouse.Catalog.Encoding
import Warehouse.Graph.Ascending

namespace Warehouse

open Json (Decoder Fields)

/-- The load of one dataset. -/
structure RunStep where
  id : UInt32
  key : DatasetKey
  inputs : List DatasetKey
deriving DecidableEq, Repr

/-- The steps of a run, in order. -/
structure RunPlan where
  batchId : String
  steps : List RunStep
deriving DecidableEq, Repr

/-- The step that loads a dataset. What it reads is listed once each, in ascending order. -/
def RunStep.ofDataset (d : Dataset) : RunStep := ⟨d.id, d.key, ascending d.inputs⟩

/-- The plan that loads datasets in the given order. -/
def RunPlan.ofOrder (batchId : String) (order : List Dataset) : RunPlan :=
  ⟨batchId, order.map RunStep.ofDataset⟩

/-! ### The JSON form -/

def RunStep.toJson (s : RunStep) : Json := .object [
  ("dataset_id", idToJson s.id),
  ("dataset_key", s.key.toJson),
  ("upstream_keys", .array (s.inputs.map DatasetKey.toJson))]

def RunStep.decode : Decoder RunStep := Decoder.record
  (RunStep.mk <$> Fields.required "dataset_id" Decoder.uint32
    <*> Fields.required "dataset_key" DatasetKey.decode
    <*> Fields.required "upstream_keys" (Decoder.list DatasetKey.decode))

def RunPlan.toJson (p : RunPlan) : Json := .object [
  ("batch_id", .string p.batchId),
  ("steps", .array (p.steps.map RunStep.toJson))]

def RunPlan.decode : Decoder RunPlan := Decoder.record
  (RunPlan.mk <$> Fields.required "batch_id" Decoder.string
    <*> Fields.required "steps" (Decoder.list RunStep.decode))

end Warehouse
