/-
Module: Warehouse.Proofs.Run.TableRenames
Purpose: Whether the table renames of a whole run fit together. Every plan of a run is made by
  itself, against the database as it is before the run, so two datasets may both take the table of a
  former name that they share, and a former name may be that of a table which another dataset has
  now. The former names for which a plan ever renames are singled out first; whether the renames of
  a run fit is then seen from the names alone.
Trusted boundary: none
Main exports: driftSteps, DriftStep.renamedAway?, RenamesFit, Dataset.CanRename, canRename_of_found,
  FormersUnshared, renames_fit_iff
-/
import Mathlib.Data.List.Permutation
import Warehouse.Proofs.Drift.Existence
import Warehouse.Proofs.Run.Order

namespace Warehouse

open LiveSchema (tableName)
open Sql (Dialect)

/-! ### What a run renames

A run renames tables only by the table steps of its plans, each plan at most one. Which names are
given up by a run is the list of these, plan by plan. -/

/-- The table whose name a step takes away. -/
def DriftStep.renamedAway? : DriftStep → Option String
  | .renameTable schema former _ => some (tableName schema former)
  | _ => none

/-- The steps for datasets, one after another; all are planned against the database as it is before
them. -/
def driftSteps (dialect : Dialect) (policy : DriftPolicy) (live : LiveSchema) (ds : List Dataset) :
    List DriftStep :=
  ds.flatMap fun d => (planDrift d live dialect policy).steps

/-- Whether the steps for datasets of a catalog get on with one another: none renames a table that
an earlier one has renamed away, and none renames away the table of another dataset. -/
structure RenamesFit (dialect : Dialect) (policy : DriftPolicy) (c : Catalog) (live : LiveSchema)
    (ds : List Dataset) : Prop where
  once : (driftSteps dialect policy live ds).Pairwise fun earlier later =>
    ∀ table ∈ earlier.renamedAway?, table ∉ later.renamedAway?
  spares : ∀ d ∈ ds, ∀ step ∈ (planDrift d live dialect policy).steps, ∀ e ∈ c.datasets,
    e.key ≠ d.key → tableName e.schema e.name ∉ step.renamedAway?

section

variable {dialect : Dialect} {policy : DriftPolicy} {d : Dataset} {live : LiveSchema}
    {physical former : String}

private theorem renamedAway_schemaFinding :
    (schemaFinding d live dialect policy).1.filterMap DriftStep.renamedAway? = [] := by
  rcases schemaFinding_cases d live dialect policy with nothing | ensure
  · rw [nothing]
    rfl
  · rw [ensure]
    rfl

private theorem renamedAway_verdictSteps (vs : List (Column × ColumnVerdict)) :
    (verdictSteps d vs).filterMap DriftStep.renamedAway? = [] := by
  rw [List.filterMap_eq_nil_iff]
  intro step asked
  rcases mem_verdictSteps_iff.mp asked with ⟨_, _, rfl⟩ | ⟨_, _, rfl⟩ | ⟨_, _, rfl⟩ <;> rfl

/-- The table steps give up the former name of a table that is renamed. -/
theorem renamedAway_tableSteps : (tableSteps d physical).filterMap DriftStep.renamedAway? =
    if physical = d.name then [] else [tableName d.schema physical] := by
  rw [tableSteps]
  split <;> rfl

/-- A plan takes at most one name away: that under which the table is found, if it is a former
one. -/
theorem renamedAway_planDrift :
    (planDrift d live dialect policy).steps.filterMap DriftStep.renamedAway? =
    ((physicalTable? d live).toList.filter fun physical => physical ≠ d.name).map
    (tableName d.schema) := by
  cases found : physicalTable? d live with
  | none =>
    rw [steps_of_lost found, renamedAway_schemaFinding]
    rfl
  | some physical =>
    rw [steps_of_found found, List.filterMap_append, List.filterMap_append,
      renamedAway_schemaFinding,
      renamedAway_verdictSteps, renamedAway_tableSteps, List.nil_append, List.append_nil,
      Option.toList_some]
    by_cases own : physical = d.name <;> simp [own]

end

/-! ### Former names for which a plan renames -/

/-- Whether the table of a dataset can be taken from the former name `former`: it is another table
than the one of the dataset's own name, and no other spelling of it stands among the former names,
which would make two of it. -/
structure Dataset.CanRename (d : Dataset) (former : String) : Prop where
  declared : former ∈ d.formerNames
  other : tableName d.schema former ≠ tableName d.schema d.name
  single : ∀ f ∈ d.formerNames, tableName d.schema f = tableName d.schema former → f = former

/-- The database with just one table. -/
def LiveSchema.only (schema name : String) : LiveSchema := LiveSchema.empty.withTable schema name []

section

variable {dialect : Dialect} {policy : DriftPolicy} {d : Dataset} {live : LiveSchema}
    {physical former : String}

/-- A schema with one table has it under all spellings of its name. -/
theorem hasTable_only {schema name schema' name' : String} :
    (LiveSchema.only schema name).hasTable schema' name' = true ↔
      tableName schema' name' = tableName schema name := by
  change (LiveSchema.empty.setTable schema name ⟨true, []⟩).hasTable schema' name' = true ↔ _
  rw [hasTable_setTable]
  split
  · next same => exact iff_of_true rfl same
  · next other => exact iff_of_false Bool.false_ne_true other

/-- A list of one element, however often, is that element when repetitions are dropped. -/
theorem eraseDups_eq_singleton {α : Type} [DecidableEq α] {x : α} {xs : List α} (member : x ∈ xs)
    (same : ∀ y ∈ xs, y = x) : xs.eraseDups = [x] := by
  cases xs with
  | nil => cases member
  | cons y rest =>
    obtain rfl := same y List.mem_cons_self
    have nothing : rest.filter (fun z => !z == y) = [] := by
      rw [List.filter_eq_nil_iff]
      intro z later
      simp [same z (List.mem_cons_of_mem _ later)]
    rw [List.eraseDups_cons, nothing]
    rfl

/-- Where a dataset's table can be taken from is where it is found if there is nothing else. -/
theorem Dataset.CanRename.physicalTable? (can : d.CanRename former) {schema name : String}
    (same : tableName d.schema former = tableName schema name) :
    physicalTable? d (.only schema name) = some former := by
  have away : ¬ (LiveSchema.only schema name).hasTable d.schema d.name = true := by
    rw [hasTable_only, ← same]
    exact can.other.symm
  have found : formerTables d (.only schema name) = [former] := by
    apply eraseDups_eq_singleton
    · exact List.mem_filter.mpr ⟨can.declared, hasTable_only.mpr same⟩
    · intro f member
      obtain ⟨declared, there⟩ := List.mem_filter.mp member
      exact can.single f declared ((hasTable_only.mp there).trans same.symm)
  rw [Warehouse.physicalTable?, if_neg away, found]

/-- Of what is there, only such a former name is taken away. -/
theorem canRename_of_found (found : physicalTable? d live = some former)
    (renamed : former ≠ d.name) : d.CanRename former := by
  rcases physicalTable?_cases found with ⟨own, _⟩ | ⟨away, only, _⟩
  · exact absurd own renamed
  · have single (f : String) : f ∈ d.formerNames ∧ live.hasTable d.schema f = true ↔
        f = former := by
      rw [← mem_formerTables, only, List.mem_singleton]
    obtain ⟨declared, there⟩ := (single former).mpr rfl
    refine ⟨declared, fun same => ?_, fun f declared' same => ?_⟩
    · rw [hasTable_congr same, away] at there
      cases there
    · exact (single f).mp ⟨declared', (hasTable_congr same).trans there⟩

/-- The tables that a plan renames away, in some database or other. -/
theorem mem_renamedAway {table : String}
    (away : table ∈ (planDrift d live dialect policy).steps.filterMap DriftStep.renamedAway?) :
    ∃ former, d.CanRename former ∧ tableName d.schema former = table := by
  rw [renamedAway_planDrift] at away
  obtain ⟨physical, kept, rfl⟩ := List.mem_map.mp away
  obtain ⟨found, renamed⟩ := List.mem_filter.mp kept
  exact ⟨physical, canRename_of_found (Option.mem_toList.mp found) (of_decide_eq_true renamed), rfl⟩

/-- With the table of such a name and no other, the plan renames it. -/
theorem Dataset.CanRename.mem_renamedAway (can : d.CanRename former) {schema name : String}
    (same : tableName d.schema former = tableName schema name) :
    tableName schema name ∈
      (planDrift d (.only schema name) dialect policy).steps.filterMap DriftStep.renamedAway? := by
  have renamed : former ≠ d.name := by
    rintro rfl
    exact can.other rfl
  rw [renamedAway_planDrift, can.physicalTable? same, ← same]
  exact List.mem_map_of_mem
    (List.mem_filter.mpr ⟨List.mem_singleton_self _, decide_eq_true renamed⟩)

end

/-! ### Whole runs -/

/-- Whether the plans for two datasets take different names away. -/
def RenameApart (dialect : Dialect) (policy : DriftPolicy) (live : LiveSchema)
    (d e : Dataset) : Prop :=
  List.Disjoint ((planDrift d live dialect policy).steps.filterMap DriftStep.renamedAway?)
    ((planDrift e live dialect policy).steps.filterMap DriftStep.renamedAway?)

/-- Whether the former names of datasets collide neither with the names of the other datasets of a
catalog nor with each other, as far as a plan ever renames for them. -/
structure FormersUnshared (c : Catalog) (ds : List Dataset) : Prop where
  spares : ∀ d ∈ ds, ∀ former, d.CanRename former → ∀ e ∈ c.datasets, e.key ≠ d.key →
    tableName e.schema e.name ≠ tableName d.schema former
  apart : ∀ d ∈ ds, ∀ e ∈ ds, e.key ≠ d.key → ∀ former former', d.CanRename former →
    e.CanRename former' → tableName d.schema former ≠ tableName e.schema former'

section

variable {dialect : Dialect} {policy : DriftPolicy} {c : Catalog} {live : LiveSchema}
    {ds : List Dataset}

/-- No table is renamed away twice if each plan takes another name away. -/
theorem renamedOnce_iff :
    ((driftSteps dialect policy live ds).Pairwise fun earlier later =>
        ∀ table ∈ earlier.renamedAway?, table ∉ later.renamedAway?) ↔
      ds.Pairwise (RenameApart dialect policy live) := by
  have alone (d : Dataset) :
      ((planDrift d live dialect policy).steps.filterMap DriftStep.renamedAway?).Nodup := by
    rw [renamedAway_planDrift]
    cases physicalTable? d live with
    | none => exact List.nodup_nil
    | some physical => by_cases own : physical = d.name <;> simp [own]
  have names : ((driftSteps dialect policy live ds).filterMap DriftStep.renamedAway?).Nodup ↔
      (driftSteps dialect policy live ds).Pairwise fun earlier later =>
        ∀ table ∈ earlier.renamedAway?, table ∉ later.renamedAway? := by
    rw [List.Nodup, List.pairwise_filterMap]
    constructor
    · exact fun apart => apart.imp fun differ table before after =>
        differ table before table after rfl
    · rintro apart
      refine apart.imp fun differ table before table' after same => ?_
      exact differ table before (same ▸ after)
  rw [← names, driftSteps, List.filterMap_flatMap, List.nodup_flatMap]
  exact and_iff_right fun d _ => alone d

/-- Names that are not shared let the renames fit, whatever is in the database. -/
theorem FormersUnshared.renamesFit (unshared : FormersUnshared c ds)
    (distinct : (ds.map Dataset.key).Nodup) (dialect : Dialect) (policy : DriftPolicy)
    (live : LiveSchema) : RenamesFit dialect policy c live ds := by
  constructor
  · rw [renamedOnce_iff]
    refine (List.pairwise_map.mp distinct).imp_of_mem
      fun {d e} left right differ table away away' => ?_
    obtain ⟨former, can, rfl⟩ := mem_renamedAway away
    obtain ⟨former', can', same⟩ := mem_renamedAway away'
    exact unshared.apart d left e right differ.symm former former' can can' same.symm
  · intro d member step planned e other differ away
    obtain ⟨former, can, same⟩ := mem_renamedAway (List.mem_filterMap.mpr ⟨step, planned, away⟩)
    exact unshared.spares d member former can e other differ same.symm

/-- Names that are shared collide in the database that has just the table of the shared name. -/
theorem formersUnshared_of_renamesFit
    (fit : ∀ schema name, RenamesFit dialect policy c (.only schema name) ds) :
    FormersUnshared c ds := by
  constructor
  · intro d member former can e other differ same
    obtain ⟨step, planned, away⟩ := List.mem_filterMap.mp (can.mem_renamedAway same.symm)
    exact (fit e.schema e.name).spares d member step planned e other differ away
  · intro d member e member' differ former former' can can' same
    have other : d ≠ e := by
      rintro rfl
      exact differ rfl
    have symmetric : Std.Symm (RenameApart dialect policy (.only d.schema former)) :=
      ⟨fun _ _ apart => apart.symm⟩
    have apart := (renamedOnce_iff.mp (fit d.schema former).once).forall member member' other
    exact apart (can.mem_renamedAway rfl) (can'.mem_renamedAway same.symm)

end

/-- The table renames of a run fit together, whatever is in the database, if and only if no former
name for which a plan renames is shared. The run may leave out some of its datasets. -/
theorem renames_fit_iff {c : Catalog} {roots : List DatasetKey} {order ds : List Dataset}
    (found : runOrder c roots = .ok order) (taken : ds.Sublist order) :
    (∀ dialect policy live, RenamesFit dialect policy c live ds) ↔ FormersUnshared c ds := by
  have distinct : (ds.map Dataset.key).Nodup :=
    (runsInOrder_of_runOrder found).members.once.sublist (taken.map _)
  constructor
  · intro fit
    exact formersUnshared_of_renamesFit fun schema name => fit .postgres {} (.only schema name)
  · intro unshared dialect policy live
    exact unshared.renamesFit distinct dialect policy live

/-! ### A name that moved on -/

/-- Clients, whose table had another name before. -/
def clientsFrom (former : String) : Dataset :=
  { customers with
    id := 1, name := "clients", strategy := .full, materialization :=
      .table, historize? := some false,
    naturalKeys := [], formerNames := [former], handleDeletes := false, inputs := [],
    columns := [Column.plain "id" "bigint" 1] }

/-- Customers, who are none of the clients. -/
def newCustomers : Dataset :=
  { clientsFrom "" with id := 2, name := "customers", formerNames := [] }

def clientsCatalog (former : String) : Catalog :=
  ⟨[⟨"core", .rawcore, true, false, true⟩], [clientsFrom former, newCustomers], []⟩

/-- Nothing else is or was called patrons. -/
theorem patrons_fit : runOrder (clientsCatalog "patrons") [] =
    .ok [clientsFrom "patrons", newCustomers] ∧
    [clientsFrom "patrons", newCustomers].Sublist [clientsFrom "patrons", newCustomers] ∧
    ∀ dialect policy live,
      RenamesFit dialect policy (clientsCatalog "patrons") live
        [clientsFrom "patrons", newCustomers] := by
  have found : runOrder (clientsCatalog "patrons") [] =
    .ok [clientsFrom "patrons", newCustomers] := by cbv
  have never (former : String) : ¬ newCustomers.CanRename former := fun can => by cases can.declared
  refine ⟨found, .refl _, (renames_fit_iff found (.refl _)).mpr ⟨?_, ?_⟩⟩
  · intro d member former can e other differ
    rcases List.mem_cons.mp member with rfl | last
    · obtain rfl : former = "patrons" := List.mem_singleton.mp can.declared
      rcases List.mem_cons.mp other with rfl | last
      · exact absurd rfl differ
      · rw [List.mem_singleton.mp last]
        decide +kernel
    · rw [List.mem_singleton.mp last] at can
      exact absurd can (never former)
  · intro d member e member' differ former former' can can'
    rcases List.mem_cons.mp member with rfl | last
    · rcases List.mem_cons.mp member' with rfl | last
      · exact absurd rfl differ
      · rw [List.mem_singleton.mp last] at can'
        exact absurd can' (never former')
    · rw [List.mem_singleton.mp last] at can
      exact absurd can (never former)

/-- The table of the customers is renamed to be that of the clients, if these have none yet. -/
theorem not_always_fit :
    ¬ ∀ (doc : CatalogDocument) (catalog : Catalog) (roots : List DatasetKey) (order : List Dataset)
      (dialect : Dialect) (policy : DriftPolicy) (live : LiveSchema),
      Catalog.ofDocument doc = .ok catalog →
      runOrder catalog roots = .ok order → RenamesFit dialect policy catalog live order := by
  intro always
  have fit :=
    always ⟨(clientsCatalog "customers").schemas, [clientsFrom "customers", newCustomers], []⟩
      (clientsCatalog "customers") [] [clientsFrom "customers", newCustomers] .postgres {}
      (.only "core" "customers") (by with_unfolding_all rfl) (by cbv)
  have found : physicalTable? (clientsFrom "customers") (.only "core" "customers") =
      some "customers" := by
    decide +kernel
  refine fit.spares (clientsFrom "customers") List.mem_cons_self
    (.renameTable "core" "customers" "clients")
      ((renameTable_mem_iff found).mpr ⟨rfl, by decide⟩) newCustomers
      (List.mem_cons_of_mem _ (List.mem_singleton_self _)) (by decide) rfl

end Warehouse
