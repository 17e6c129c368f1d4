/-
Module: Warehouse.Proofs.Drift.Convergence
Purpose: A table that was brought into line needs nothing more. Once a plan that left nothing open
  is carried out, every declared column is there under its own name, and so are the table and its
  schema; the next plan finds them, and at most compares types.
Trusted boundary: none
Main exports: DriftWarning.isAmbiguous, DriftStep.isRetype, isRetype_of_present, drift_converges
-/
import Warehouse.Proofs.Drift.Applied

namespace Warehouse

open Sql (ColumnSpec DataType Definition Dialect)

/-- Whether former names pointed to more than one thing. -/
def DriftWarning.isAmbiguous : DriftWarning → Bool
  | .ambiguousTableRename .. | .ambiguousRename .. => true
  | _ => false

/-- Whether a step only changes the type of a column. -/
def DriftStep.isRetype : DriftStep → Bool
  | .alterColumnType .. => true
  | _ => false

section

variable {dialect : Dialect} {policy : DriftPolicy} {d : Dataset} {live : LiveSchema}
    {physical : String}

/-- If all declared columns are there, verdicts ask for types only. -/
theorem isRetype_of_present {columns : List LiveColumn}
    (present : ∀ c ∈ d.columns, hasColumn columns c.name = true) {s : DriftStep}
    (planned : s ∈ verdictSteps d (tableVerdicts dialect policy d columns)) :
    s.isRetype = true := by
  have there {c : Column} {v : ColumnVerdict}
    (member : (c, v) ∈ tableVerdicts dialect policy d columns) :
      liveColumn? columns (Text.lower c.name) ≠ none := by
    have declared : c ∈ d.columns := exists_verdict_iff.mp ⟨v, member⟩
    exact Option.isSome_iff_ne_none.mp (present c declared)
  rcases mem_verdictSteps_iff.mp planned with ⟨_, rename, rfl⟩ | ⟨_, add, rfl⟩ | ⟨_, _, rfl⟩
  · obtain ⟨c, former, member, rfl⟩ := mem_renamed.mp rename
    exact absurd (judged_of_mem member).of_rename.1 (there member)
  · obtain ⟨c, type, member, rfl⟩ := mem_added.mp add
    exact absurd (judged_of_mem member).of_add (there member)
  · rfl

/-- A plan that leaves nothing open has decided on every column. -/
theorem decided_of_clear (found : physicalTable? d live = some physical)
    (unblocked : (planDrift d live dialect policy).blockers = [])
    (clear : ∀ w ∈ (planDrift d live dialect policy).warnings, w.isAmbiguous = false)
    {c : Column} {v : ColumnVerdict}
    (member : (c, v) ∈ tableVerdicts dialect policy d (live.columns d.schema physical)) :
    v ≠ .unresolved ∧ ∀ formers, v ≠ .ambiguous formers := by
  refine ⟨resolved_of_unblocked found unblocked member, ?_⟩
  rintro formers rfl
  rw [warnings_of_found found] at clear
  have warned : DriftWarning.ambiguousRename d.key c.name (formers.map LiveColumn.name) ∈
      (tableVerdicts dialect policy d (live.columns d.schema physical)).filterMap
        (columnWarning? d) :=
    List.mem_filterMap.mpr ⟨_, member, rfl⟩
  cases clear _ (List.mem_append_right _ warned)

/-- Then every declared column is there under its own name. -/
theorem present_of_planDone (found : physicalTable? d live = some physical)
    (unblocked : (planDrift d live dialect policy).blockers = [])
    (clear : ∀ w ∈ (planDrift d live dialect policy).warnings, w.isAmbiguous = false)
    {after : LiveSchema} (done : PlanDone dialect policy d physical live after) :
    ∀ c ∈ d.columns, hasColumn (after.columns d.schema d.name) c.name = true := by
  intro c declared
  obtain ⟨v, member⟩ := exists_verdict_iff.mpr declared
  obtain ⟨resolved, decided⟩ := decided_of_clear found unblocked clear member
  exact done.columns.present _ v member resolved decided

end

/-- Materialization converges: once a plan is carried out that is not blocked and not ambiguous, the
next one creates, renames and adds nothing. -/
theorem drift_converges {d : Dataset} (distinct : d.DistinctLowerNames) {live : LiveSchema}
    {dialect : Dialect} {policy : DriftPolicy}
    (unblocked : (planDrift d live dialect policy).blockers = [])
    (clear : ∀ w ∈ (planDrift d live dialect policy).warnings, w.isAmbiguous = false) :
    ∃ after, afterSteps? dialect live (planDrift d live dialect policy).steps = some after ∧
      ∀ s ∈ (planDrift d after dialect policy).steps, s.isRetype = true := by
  cases found : physicalTable? d live with
  | some physical =>
    obtain ⟨after, run, done⟩ := exists_planDone dialect policy distinct found
    have present := present_of_planDone found unblocked clear done
    have found' : physicalTable? d after = some d.name := by rw [physicalTable?, if_pos done.there]
    refine ⟨after, run, fun s planned => ?_⟩
    rw [steps_of_found found', done.schemaDone, tableSteps, if_pos rfl] at planned
    exact isRetype_of_present present planned
  | none =>
    obtain ⟨after, run, tables, settled⟩ := afterSteps?_schemaFinding d live dialect policy
    have agree := agreeOn_of_tables tables
    have lost : physicalTable? d after = none := by
      rw [← found, physicalTable?_congr agree]
    refine ⟨after, by rw [steps_of_lost found, run], fun s planned => ?_⟩
    rw [steps_of_lost lost, settled after rfl] at planned
    cases planned

/-- After its run the plan for the clients is done: a second one has nothing left to do. -/
theorem drift_converges_for_clients :
    renamedCustomers.DistinctLowerNames ∧
    (planDrift renamedCustomers clientDatabase .postgres ⟨true, true⟩).blockers = [] ∧
    (∀ w ∈ (planDrift renamedCustomers clientDatabase .postgres ⟨true, true⟩).warnings,
      w.isAmbiguous = false) ∧
    ∃ after, afterSteps? .postgres clientDatabase
        (planDrift renamedCustomers clientDatabase .postgres ⟨true, true⟩).steps = some after ∧
      ∀ s ∈ (planDrift renamedCustomers after .postgres ⟨true, true⟩).steps, s.isRetype = true := by
  have distinct : renamedCustomers.DistinctLowerNames := by decide
  have reported : (planDrift renamedCustomers clientDatabase .postgres ⟨true, true⟩).blockers = [] ∧
      ∀ w ∈ (planDrift renamedCustomers clientDatabase .postgres ⟨true, true⟩).warnings,
        w.isAmbiguous = false := by
    simp only [planDrift, planColumns, orderedColumns_renamedCustomers]
    decide +kernel
  exact ⟨distinct, reported.1, reported.2, drift_converges distinct reported.1 reported.2⟩

end Warehouse
