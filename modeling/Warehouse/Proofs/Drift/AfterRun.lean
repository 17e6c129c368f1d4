/-
Module: Warehouse.Proofs.Drift.AfterRun
Purpose: When an ambiguity outlasts the run that reports it. A run carries out the plan for a table,
  and creates the table if the plan says that there is none; all its statements are written before
  the first is carried out. Either of the two may take a candidate away from what is ambiguous, and
  nothing else does.
Trusted boundary: none
Main exports: afterRun?, exists_tokens_of_planned, DriftPlan.KeepsAmbiguities, SparesCandidates,
  LiveSchema.DistinctColumns, ambiguity_lasts_iff
-/
import Warehouse.Proofs.Drift.Ambiguity
import Warehouse.Proofs.Drift.Applied
import Warehouse.Proofs.Results
import Warehouse.Run.Script

namespace Warehouse

open Sql (ColumnSpec DataType Definition Dialect Statement)

/-! ### What a run does to a table

A run creates the table as the dataset declares it, unless there is one, and then goes through the
steps of the plan. It comes to an end only if all these statements can be written for the dialect.
-/

/-- The database in which the table of a dataset has been created, if all columns have types. -/
def createdIn (dialect : Dialect) (d : Dataset) (live : LiveSchema) : LiveSchema :=
  match columnSpecs d with
  | .ok specs => live.setTable d.schema d.name ⟨true, specs.map (addedColumn dialect)⟩
  | .error _ => live

/-- The database after what a run does to the table of a dataset: the table is created if it is
missing, then the plan is carried out. A plan that is blocked, or a statement that cannot be
written, keeps the run from doing anything. -/
def afterRun? (dialect : Dialect) (policy : DriftPolicy) (d : Dataset) (live : LiveSchema) :
    Option LiveSchema :=
  let plan := planDrift d live dialect policy
  if plan.isBlocked then some live
  else match renderPlanned dialect (tableStatements d plan) with
    | .ok _ =>
      afterSteps? dialect (if plan.tableExists then live else createdIn dialect d live) plan.steps
    | .error _ => some live

section

variable {dialect : Dialect} {policy : DriftPolicy} {d : Dataset} {live : LiveSchema}
    {physical : String}

/-- A type is changed only where the dialect can change it. -/
theorem hasAlterColumnType_of_retype {columns : List LiveColumn} {c : Column} {type : DataType}
    (member : (c, .retype type) ∈ tableVerdicts dialect policy d columns) :
    dialect.hasAlterColumnType = true := by
  generalize verdict : ColumnVerdict.retype type = v at member
  cases judged_of_mem member with
  | @existing e found =>
    unfold existingVerdict at verdict
    split at verdict
    · cases verdict
    · cases verdict
    · cases verdict
    · split at verdict
      · next allowed => exact (Bool.and_eq_true_iff.mp allowed).2
      · cases verdict
  | missing claimed absent =>
    rcases missingVerdict_cases c (freeFormers d columns claimed c) with
      ⟨_, same⟩ | same | ⟨_, same⟩ | same <;> rw [same] at verdict <;> cases verdict

/-- The steps of a column are planned only where the dialect can write them. -/
theorem exists_tokens_of_verdict {columns : List LiveColumn} {s : DriftStep}
    (asked : s ∈ verdictSteps d (tableVerdicts dialect policy d columns)) :
    ∃ tokens, s.definition.tokens dialect = .ok tokens := by
  rcases mem_verdictSteps_iff.mp asked with ⟨_, _, rfl⟩ | ⟨_, _, rfl⟩ | ⟨_, retype, rfl⟩
  · exact ⟨_, rfl⟩
  · exact ⟨_, rfl⟩
  · obtain ⟨c, type, member, rfl⟩ := mem_retyped.mp retype
    have able := hasAlterColumnType_of_retype member
    cases dialect <;> first | exact ⟨_, rfl⟩ | cases able

/-- A schema is created only where the dialect can create one. -/
private theorem exists_tokens_of_schemaFinding {s : DriftStep}
    (asked : s ∈ (schemaFinding d live dialect policy).1) :
    ∃ tokens, s.definition.tokens dialect = .ok tokens := by
  unfold schemaFinding at asked
  split at asked
  · split at asked
    · next able =>
      obtain ⟨tokens, made⟩ := Option.isSome_iff_exists.mp able
      cases List.mem_singleton.mp asked
      exact ⟨tokens, by simp only [DriftStep.definition, Definition.tokens, made]⟩
    · cases asked
  · cases asked

/-- Every step of a plan can be written. -/
theorem exists_tokens_of_planned {s : DriftStep}
    (planned : s ∈ (planDrift d live dialect policy).steps) :
    ∃ tokens, s.definition.tokens dialect = .ok tokens := by
  cases found : physicalTable? d live with
  | none =>
    rw [steps_of_lost found] at planned
    exact exists_tokens_of_schemaFinding planned
  | some physical =>
    rw [steps_of_found found, List.mem_append, List.mem_append] at planned
    rcases planned with (ofSchema | ofTable) | ofColumns
    · exact exists_tokens_of_schemaFinding ofSchema
    · rw [tableSteps] at ofTable
      split at ofTable
      · cases ofTable
      · cases List.mem_singleton.mp ofTable
        exact ⟨_, rfl⟩
    · exact exists_tokens_of_verdict ofColumns

/-- Statements can be written together if the first can be and the others can. -/
theorem exists_renderPlanned_cons {planned : Planned} {rest : List Planned} :
    (∃ texts, renderPlanned dialect (planned :: rest) = .ok texts) ↔
      (∃ statement texts, planned = .ok statement ∧ statement.sql dialect = .ok texts) ∧
        ∃ texts, renderPlanned dialect rest = .ok texts := by
  rw [renderPlanned]
  constructor
  · rintro ⟨texts, rendered⟩
    obtain ⟨statement, made, rendered⟩ := bind_eq_ok_iff.mp rendered
    obtain ⟨first, written, rendered⟩ := bind_eq_ok_iff.mp rendered
    obtain ⟨others, later, _⟩ := bind_eq_ok_iff.mp rendered
    exact ⟨⟨statement, first, made, mapError_eq_ok_iff.mp written⟩, others, later⟩
  · rintro ⟨⟨statement, first, rfl, written⟩, others, later⟩
    refine ⟨first ++ others,
      bind_eq_ok_iff.mpr ⟨statement, rfl, bind_eq_ok_iff.mpr ⟨first, ?_, ?_⟩⟩⟩
    · exact mapError_eq_ok_iff.mpr written
    · exact bind_eq_ok_iff.mpr ⟨others, later, rfl⟩

/-- A definition can be written exactly if it has tokens. -/
theorem exists_sql_iff {statement : Definition} :
    (∃ texts, (Statement.definition statement).sql dialect = .ok texts) ↔
      ∃ tokens, statement.tokens dialect = .ok tokens := by
  rw [Statement.sql, Definition.sql]
  constructor
  · rintro ⟨texts, written⟩
    obtain ⟨text, made, _⟩ := bind_eq_ok_iff.mp written
    obtain ⟨tokens, made, _⟩ := bind_eq_ok_iff.mp made
    exact ⟨tokens, made⟩
  · rintro ⟨tokens, made⟩
    rw [made]
    exact ⟨_, rfl⟩

private theorem exists_renderPlanned_steps {steps : List DriftStep}
    (each : ∀ s ∈ steps, ∃ tokens, s.definition.tokens dialect = .ok tokens) :
    ∃ texts, renderPlanned dialect (steps.map fun s => .ok (.definition s.definition)) =
      .ok texts := by
  induction steps with
  | nil => exact ⟨[], rfl⟩
  | cons s rest ih =>
    rw [List.map_cons, exists_renderPlanned_cons]
    obtain ⟨texts, written⟩ := exists_sql_iff.mpr (each s List.mem_cons_self)
    exact ⟨⟨_, texts, rfl, written⟩, ih fun s' member => each s' (List.mem_cons_of_mem _ member)⟩

/-- The table of a dataset can be created if it has columns, and all of them have types. -/
theorem exists_create_iff :
    (∃ statement texts, plannedTable d = .ok statement ∧ statement.sql dialect = .ok texts) ↔
      ∃ specs, columnSpecs d = .ok specs ∧ specs ≠ [] := by
  rw [plannedTable]
  cases specified : columnSpecs d with
  | error e =>
    constructor
    · rintro ⟨_, _, made, _⟩
      cases made
    · rintro ⟨_, made, _⟩
      cases made
  | ok specs =>
    constructor
    · rintro ⟨_, texts, made, written⟩
      cases made
      obtain ⟨tokens, made⟩ := exists_sql_iff.mp ⟨texts, written⟩
      refine ⟨specs, rfl, ?_⟩
      rintro rfl
      cases made
    · rintro ⟨_, same, some_column⟩
      cases same
      have tokens : ∃ tokens, (Definition.createTable d.objectName specs).tokens dialect =
          .ok tokens := by
        cases specs with
        | nil => exact absurd rfl some_column
        | cons _ _ => exact ⟨_, rfl⟩
      obtain ⟨texts, written⟩ := exists_sql_iff.mpr tokens
      exact ⟨_, texts, rfl, written⟩

/-! ### Plans and what they report -/

/-- Whether the second of two plans reports each ambiguity that the first one reports, and renames
nothing into what is ambiguous. -/
structure DriftPlan.KeepsAmbiguities (first second : DriftPlan) : Prop where
  columns : ∀ dataset column formers, DriftWarning.ambiguousRename dataset column formers ∈
    first.warnings → .ambiguousRename dataset column formers ∈ second.warnings ∧
      ∀ former, .renameColumn dataset.schema dataset.name former column ∉ second.steps
  table : ∀ dataset formers, DriftWarning.ambiguousTableRename dataset formers ∈ first.warnings →
    .ambiguousTableRename dataset formers ∈ second.warnings ∧
      ∀ former, .renameTable dataset.schema former dataset.name ∉ second.steps

/-- Whether a plan, and the creation of a missing table, leave the candidates for what is ambiguous
as they are: no former column of an ambiguous column is renamed, and a table with several former
tables is not created, which only a dataset with no columns, or with one that has no type,
prevents. -/
structure SparesCandidates (d : Dataset) (plan : DriftPlan) : Prop where
  columns : ∀ dataset column formers, DriftWarning.ambiguousRename dataset column formers ∈
    plan.warnings →
    ∀ schema table former name, .renameColumn schema table former name ∈ plan.steps →
      former ∉ formers
  table : ∀ dataset formers, DriftWarning.ambiguousTableRename dataset formers ∈ plan.warnings →
    ¬ ∃ specs, columnSpecs d = .ok specs ∧ specs ≠ []

/-- An ambiguous column is reported exactly if that was the verdict on it. -/
theorem ambiguousRename_mem_iff (found : physicalTable? d live = some physical)
    {dataset : DatasetKey} {column : String} {formers : List String} :
    .ambiguousRename dataset column formers ∈ (planDrift d live dialect policy).warnings ↔
      dataset = d.key ∧ ∃ c fs, (c, .ambiguous fs) ∈
        tableVerdicts dialect policy d (live.columns d.schema physical) ∧
        c.name = column ∧ fs.map LiveColumn.name = formers := by
  constructor
  · intro reported
    rcases of_mem_warnings found reported with same | same | ⟨⟨c, v⟩, member, warned⟩
    · cases same
    · cases same
    · cases v <;> cases warned
      exact ⟨rfl, c, _, member, rfl, rfl⟩
  · rintro ⟨rfl, c, fs, member, rfl, rfl⟩
    rw [warnings_of_found found]
    exact List.mem_append_right _ (List.mem_filterMap.mpr ⟨_, member, rfl⟩)

/-- No ambiguous table is reported once the table is found. -/
private theorem ambiguousTableRename_notMem (found : physicalTable? d live = some physical)
    (dataset : DatasetKey) (formers : List String) :
    .ambiguousTableRename dataset formers ∉ (planDrift d live dialect policy).warnings := by
  intro reported
  rcases of_mem_warnings found reported with same | same | ⟨⟨c, v⟩, _, warned⟩
  · cases same
  · cases same
  · cases v <;> cases warned

/-- The columns of a table that is found are renamed as the verdicts ask. -/
theorem renameColumn_mem_iff (found : physicalTable? d live = some physical)
    {schema table former name : String} :
    .renameColumn schema table former name ∈ (planDrift d live dialect policy).steps ↔
      schema = d.schema ∧ table = d.name ∧ (former, name) ∈
        (tableVerdicts dialect policy d (live.columns d.schema physical)).filterMap renamed? := by
  rw [steps_of_found found, List.mem_append, List.mem_append]
  constructor
  · rintro ((ofSchema | ofTable) | ofColumns)
    · cases ensureSchema_of_mem ofSchema
    · rw [tableSteps] at ofTable
      split at ofTable
      · cases ofTable
      · cases List.mem_singleton.mp ofTable
    · rcases mem_verdictSteps_iff.mp ofColumns with ⟨_, renamed, same⟩ | ⟨_, _, same⟩ | ⟨_, _, same⟩
      · cases same
        exact ⟨rfl, rfl, renamed⟩
      · cases same
      · cases same
  · rintro ⟨rfl, rfl, renamed⟩
    exact .inr (mem_verdictSteps_iff.mpr (.inl ⟨_, renamed, rfl⟩))

/-- A table that is not found has no columns to be ambiguous. -/
theorem ambiguousRename_notMem_of_lost (lost : physicalTable? d live = none) (dataset : DatasetKey)
    (column : String) (formers : List String) :
    .ambiguousRename dataset column formers ∉ (planDrift d live dialect policy).warnings := by
  obtain ⟨w, which, plan⟩ := planDrift_of_lost dialect policy lost
  intro reported
  rw [plan, List.mem_append, List.mem_singleton] at reported
  rcases reported with ofSchema | rfl
  · cases schemaNotCreatable_of_mem ofSchema
  · rcases which with same | same <;> cases same

/-- A plan renames nothing into what it reports as ambiguous. -/
theorem keepsAmbiguities_self (dialect : Dialect) (policy : DriftPolicy)
    (distinct : d.DistinctLowerNames) (live : LiveSchema) :
    (planDrift d live dialect policy).KeepsAmbiguities (planDrift d live dialect policy) := by
  cases found : physicalTable? d live with
  | some physical =>
    constructor
    · intro dataset column formers reported
      refine ⟨reported, fun former planned => ?_⟩
      obtain ⟨_, c, fs, member, rfl, _⟩ := (ambiguousRename_mem_iff found).mp reported
      obtain ⟨_, _, renamed⟩ := (renameColumn_mem_iff found).mp planned
      obtain ⟨c', f, member', same⟩ := mem_renamed.mp renamed
      have verdict :=
        verdict_unique distinct member member' (congrArg Text.lower (Prod.mk.inj same).2)
      cases verdict
    · intro dataset formers reported
      exact absurd reported (ambiguousTableRename_notMem found dataset formers)
  | none =>
    constructor
    · intro dataset column formers reported
      exact absurd reported (ambiguousRename_notMem_of_lost found dataset column formers)
    · intro dataset formers reported
      refine ⟨reported, fun former planned => ?_⟩
      rw [steps_of_lost found] at planned
      cases ensureSchema_of_mem planned

/-! ### A table that is found -/

/-- No table of a database has two columns of one name. -/
def LiveSchema.DistinctColumns (live : LiveSchema) : Prop :=
  ∀ schema table, ((live.columns schema table).map fun c => Text.lower c.name).Nodup

/-- The verdicts of a plan that spares the candidates rename none of them. -/
theorem SparesCandidates.columns_of_found (found : physicalTable? d live = some physical)
    (spares : SparesCandidates d (planDrift d live dialect policy)) {c : Column}
    {formers : List LiveColumn}
    (member : (c, .ambiguous formers) ∈
      tableVerdicts dialect policy d (live.columns d.schema physical)) {r : String × String}
    (renamed : r ∈
      (tableVerdicts dialect policy d (live.columns d.schema physical)).filterMap renamed?) :
    r.1 ∉ formers.map LiveColumn.name := by
  have reported := (ambiguousRename_mem_iff found).mpr ⟨rfl, c, formers, member, rfl, rfl⟩
  have planned := (renameColumn_mem_iff found).mpr ⟨rfl, rfl, renamed⟩
  exact spares.columns d.key c.name _ reported d.schema d.name r.1 r.2 planned

/-- A plan for a table that is found keeps its ambiguities exactly if it renames no candidate. -/
theorem keepsAmbiguities_iff_of_found (distinct : d.DistinctLowerNames)
    (single : live.DistinctColumns) (found : physicalTable? d live = some physical)
    {after : LiveSchema} (unblocked : (planDrift d live dialect policy).blockers = [])
    (run : (verdictSteps d (tableVerdicts dialect policy d (live.columns d.schema physical))).foldlM
      (fun cs s => s.onColumns? dialect cs) (live.columns d.schema physical) =
        some (after.columns d.schema d.name))
    (done : PlanDone dialect policy d physical live after) :
    (planDrift d live dialect policy).KeepsAmbiguities (planDrift d after dialect policy) ↔
      SparesCandidates d (planDrift d live dialect policy) := by
  have found' : physicalTable? d after = some d.name := by rw [physicalTable?, if_pos done.there]
  have apart := single d.schema physical
  constructor
  · intro keeps
    constructor
    · intro dataset column formers reported schema table former name planned among
      obtain ⟨again, _⟩ := keeps.columns dataset column formers reported
      obtain ⟨_, c, fs, member, _, rfl⟩ := (ambiguousRename_mem_iff found').mp again
      obtain ⟨_, _, renamed⟩ := (renameColumn_mem_iff found).mp planned
      obtain ⟨_, _, claimed, same, _⟩ := of_ambiguous member
      rw [same] at among
      exact notMem_names_freeFormers_after run apart renamed claimed c among
    · intro dataset formers reported
      exact absurd reported (ambiguousTableRename_notMem found dataset formers)
  · intro spares
    obtain ⟨ambiguous, quiet⟩ := tableVerdicts_after distinct apart run done.columns
      (fun _ _ member => resolved_of_unblocked found unblocked member)
      (fun _ _ member _ renamed => spares.columns_of_found found member renamed)
    constructor
    · intro dataset column formers reported
      obtain ⟨rfl, c, fs, member, rfl, rfl⟩ := (ambiguousRename_mem_iff found).mp reported
      obtain ⟨fs', again, names⟩ := ambiguous c fs member
      refine ⟨(ambiguousRename_mem_iff found').mpr ⟨rfl, c, fs', again, rfl, names⟩, ?_⟩
      intro former planned
      obtain ⟨_, _, renamed⟩ := (renameColumn_mem_iff found').mp planned
      rw [quiet] at renamed
      cases renamed
    · intro dataset formers reported
      exact absurd reported (ambiguousTableRename_notMem found dataset formers)

/-- A run carries out a plan for a table that is found, unless it is blocked. -/
theorem exists_afterRun_of_found (distinct : d.DistinctLowerNames)
    (found : physicalTable? d live = some physical)
    (unblocked : (planDrift d live dialect policy).isBlocked = false) :
    ∃ after, afterRun? dialect policy d live = some after ∧
      (verdictSteps d (tableVerdicts dialect policy d (live.columns d.schema physical))).foldlM
        (fun cs s => s.onColumns? dialect cs) (live.columns d.schema physical) =
          some (after.columns d.schema d.name) ∧
      PlanDone dialect policy d physical live after := by
  obtain ⟨after, applied, run, done⟩ := exists_planRun dialect policy distinct found
  refine ⟨after, ?_, run, done⟩
  obtain ⟨_, plan⟩ := planDrift_of_found dialect policy found
  have there : (planDrift d live dialect policy).tableExists = true := by
    rw [plan]
    rfl
  have statements : tableStatements d (planDrift d live dialect policy) =
      (planDrift d live dialect policy).steps.map fun s => .ok (.definition s.definition) := by
    rw [tableStatements, if_pos there]
    rfl
  have written : ∃ texts,
    renderPlanned dialect (tableStatements d (planDrift d live dialect policy)) =
      .ok texts := by
    rw [statements]
    exact exists_renderPlanned_steps fun s planned => exists_tokens_of_planned planned
  obtain ⟨texts, rendered⟩ := written
  simp only [afterRun?, unblocked, rendered, there, applied, Bool.false_eq_true, if_false, if_true]

/-! ### A table that is not found -/

/-- After a run for a table that is not found, the table is there if it can be created; if not, the
database is as it was. -/
theorem exists_afterRun_of_lost (dialect : Dialect) (policy : DriftPolicy)
    (lost : physicalTable? d live = none) :
    ((∃ specs, columnSpecs d = .ok specs ∧ specs ≠ []) →
      ∃ after, afterRun? dialect policy d live = some after ∧
        after.hasTable d.schema d.name = true) ∧
    ((¬ ∃ specs, columnSpecs d = .ok specs ∧ specs ≠ []) →
      afterRun? dialect policy d live = some live) := by
  obtain ⟨_, _, plan⟩ := planDrift_of_lost dialect policy lost
  have unblocked : (planDrift d live dialect policy).isBlocked = false := by
    rw [plan]
    rfl
  have missing : (planDrift d live dialect policy).tableExists = false := by rw [plan]
  have statements : tableStatements d (planDrift d live dialect policy) =
      plannedTable d :: (planDrift d live dialect policy).steps.map fun s =>
      .ok (.definition s.definition) := by
    rw [tableStatements, missing]
    rfl
  have written :
      (∃ texts, renderPlanned dialect (tableStatements d (planDrift d live dialect policy)) =
        .ok texts) ↔ ∃ specs, columnSpecs d = .ok specs ∧ specs ≠ [] := by
    rw [statements, exists_renderPlanned_cons, exists_create_iff]
    exact and_iff_left (exists_renderPlanned_steps fun s planned =>
      exists_tokens_of_planned planned)
  constructor
  · intro creatable
    obtain ⟨texts, rendered⟩ := written.mpr creatable
    obtain ⟨specs, specified, _⟩ := creatable
    have created : (createdIn dialect d live).hasTable d.schema d.name = true := by
      rw [createdIn, specified]
      exact LiveSchema.hasTable_of_table? (LiveSchema.table?_setTable_self _)
    have run : afterRun? dialect policy d live =
        afterSteps? dialect (createdIn dialect d live) (schemaFinding d live dialect policy).1 := by
      simp only [afterRun?, unblocked, rendered, missing, steps_of_lost lost,
        Bool.false_eq_true, if_false]
    rw [run]
    rcases schemaFinding_cases d live dialect policy with nothing | ensure
    · rw [nothing]
      exact ⟨_, rfl, created⟩
    · rw [ensure]
      exact ⟨_, rfl, created⟩
  · intro not_creatable
    cases rendered :
      renderPlanned dialect (tableStatements d (planDrift d live dialect policy)) with
    | ok texts => exact absurd (written.mp ⟨texts, rendered⟩) not_creatable
    | error e => simp only [afterRun?, unblocked, rendered, Bool.false_eq_true, if_false]

/-- An ambiguity about which table it is outlasts the run exactly if the table cannot be created. -/
theorem lasts_iff_of_lost (dialect : Dialect) (policy : DriftPolicy)
    (distinct : d.DistinctLowerNames) (lost : physicalTable? d live = none) :
    ∃ after, afterRun? dialect policy d live = some after ∧
      ((planDrift d live dialect policy).KeepsAmbiguities (planDrift d after dialect policy) ↔
        SparesCandidates d (planDrift d live dialect policy)) := by
  obtain ⟨creates, leaves⟩ := exists_afterRun_of_lost dialect policy lost
  have columns (dataset : DatasetKey) (column : String) (formers : List String) :
      .ambiguousRename dataset column formers ∉ (planDrift d live dialect policy).warnings :=
    ambiguousRename_notMem_of_lost lost dataset column formers
  by_cases creatable : ∃ specs, columnSpecs d = .ok specs ∧ specs ≠ []
  · obtain ⟨after, run, there⟩ := creates creatable
    have found : physicalTable? d after = some d.name := by rw [physicalTable?, if_pos there]
    refine ⟨after, run, fun keeps => ⟨?_, ?_⟩, fun spares => ⟨?_, ?_⟩⟩
    · intro dataset column formers reported
      exact absurd reported (columns dataset column formers)
    · intro dataset formers reported
      exact absurd (keeps.table dataset formers reported).1
        (ambiguousTableRename_notMem found dataset formers)
    · intro dataset column formers reported
      exact absurd reported (columns dataset column formers)
    · intro dataset formers reported
      exact absurd creatable (spares.table dataset formers reported)
  · refine ⟨live, leaves creatable, fun _ => ⟨?_, fun _ _ _ => creatable⟩, fun _ => ?_⟩
    · intro dataset column formers reported
      exact absurd reported (columns dataset column formers)
    · exact keepsAmbiguities_self dialect policy distinct live

end

/-- An ambiguity outlasts the run that reports it if and only if the run does nothing, or leaves the
candidates as they are: no former column of an ambiguous column is renamed for another column, and a
table with several former tables is not created. -/
theorem ambiguity_lasts_iff {d : Dataset} (distinct : d.DistinctLowerNames) {live : LiveSchema}
    (single : live.DistinctColumns) (dialect : Dialect) (policy : DriftPolicy) :
    ∃ after, afterRun? dialect policy d live = some after ∧
      ((planDrift d live dialect policy).KeepsAmbiguities (planDrift d after dialect policy) ↔
        (planDrift d live dialect policy).isBlocked = true ∨
          SparesCandidates d (planDrift d live dialect policy)) := by
  cases unblocked : (planDrift d live dialect policy).isBlocked with
  | true =>
    have nothing : afterRun? dialect policy d live = some live := by
      simp only [afterRun?, unblocked, if_true]
    exact ⟨live, nothing, fun _ => .inl rfl,
      fun _ => keepsAmbiguities_self dialect policy distinct live⟩
  | false =>
    rw [or_iff_right Bool.false_ne_true]
    cases found : physicalTable? d live with
    | some physical =>
      obtain ⟨after, applied, run, done⟩ := exists_afterRun_of_found distinct found unblocked
      have blockers : (planDrift d live dialect policy).blockers = [] := by
        simpa [DriftPlan.isBlocked] using unblocked
      exact ⟨after, applied, keepsAmbiguities_iff_of_found distinct single found blockers run done⟩
    | none => exact lasts_iff_of_lost dialect policy distinct found

/-! ### Two columns with one former name -/

/-- Customers whose name may stand in either of two former columns, one of which may be another
column as well. -/
def namedTwice : Dataset :=
  { customers with
    columns :=
      [{ Column.plain "name" "varchar(200)" 1 with formerNames := ["full_name", "cust_name"] },
       { Column.plain "legal_name" "varchar(200)" 2 with formerNames := ["full_name"] }] }

/-- The database with a table of customers that has columns of these names. -/
def customersWith (names : List String) : LiveSchema :=
  LiveSchema.empty.withTable "core" "customers" (names.map fun name => ⟨name, "varchar(200)", true⟩)

private theorem orderedColumns_namedTwice : namedTwice.orderedColumns = namedTwice.columns :=
  List.mergeSort_of_pairwise (by decide)

/-- The table has distinct columns if the names that it is made with are. -/
theorem distinctColumns_customersWith {names : List String} (apart : (names.map Text.lower).Nodup) :
    (customersWith names).DistinctColumns := by
  intro schema table
  by_cases here : LiveSchema.tableName schema table = LiveSchema.tableName "core" "customers"
  · have columns : (customersWith names).columns schema table =
        names.map fun name => ⟨name, "varchar(200)", true⟩ := by
      rw [LiveSchema.columns, LiveSchema.table?, here]
      simp [customersWith, LiveSchema.withTable, LiveSchema.withSchema, LiveSchema.empty]
    rw [columns, List.map_map]
    exact apart
  · have other :
        (LiveSchema.tableName schema table == LiveSchema.tableName "core" "customers") = false :=
      beq_false_of_ne here
    have columns : (customersWith names).columns schema table = [] := by
      simp [LiveSchema.columns, LiveSchema.table?, customersWith, LiveSchema.withTable,
        LiveSchema.withSchema, LiveSchema.empty, List.lookup_cons, other]
    rw [columns]
    exact List.nodup_nil

/-- Three former names are left, of which a run takes none, so that the next finds them again. -/
theorem ambiguity_lasts_for_names :
    namedTwice.DistinctLowerNames ∧
    (customersWith ["full_name", "cust_name", "legal_name"]).DistinctColumns ∧
    ∃ after, afterRun? .postgres {} namedTwice
      (customersWith ["full_name", "cust_name", "legal_name"]) =
        some after ∧
      (planDrift namedTwice (customersWith ["full_name", "cust_name", "legal_name"]) .postgres
        {}).KeepsAmbiguities (planDrift namedTwice after .postgres {}) := by
  have distinct : namedTwice.DistinctLowerNames := by decide
  have single : (customersWith ["full_name", "cust_name", "legal_name"]).DistinctColumns :=
    distinctColumns_customersWith (by decide)
  have plan :
      (planDrift namedTwice (customersWith ["full_name", "cust_name", "legal_name"]) .postgres
        {}).steps = [] ∧
      (planDrift namedTwice (customersWith ["full_name", "cust_name", "legal_name"]) .postgres
        {}).warnings =
          [.ambiguousRename ⟨"core", "customers"⟩ "name" ["full_name", "cust_name"]] := by
    simp only [planDrift, planColumns, orderedColumns_namedTwice]
    decide +kernel
  obtain ⟨after, run, lasts⟩ := ambiguity_lasts_iff distinct single .postgres {}
  refine ⟨distinct, single, after, run, lasts.mpr (.inr ⟨?_, ?_⟩)⟩
  · intro _ _ _ _ _ _ _ _ planned
    rw [plan.1] at planned
    cases planned
  · intro _ _ reported
    rw [plan.2] at reported
    cases List.mem_singleton.mp reported

/-- Not every ambiguity outlasts the run that reports it: the same run renames one of the two former
columns for the other column, and the next one takes what is left for the name. -/
theorem not_always_lasts :
    ¬ ∀ (d : Dataset) (live after : LiveSchema) (dialect : Dialect) (policy : DriftPolicy),
      d.DistinctLowerNames → live.DistinctColumns → afterRun? dialect policy d live = some after →
      (planDrift d live dialect policy).KeepsAmbiguities (planDrift d after dialect policy) := by
  intro always
  have first :
    (planDrift namedTwice (customersWith ["full_name", "cust_name"]) .postgres {}).warnings =
      [.ambiguousRename ⟨"core", "customers"⟩ "name" ["full_name", "cust_name"]] := by
    simp only [planDrift, planColumns, orderedColumns_namedTwice]
    decide +kernel
  have run : afterRun? .postgres {} namedTwice (customersWith ["full_name", "cust_name"]) =
      some ((customersWith ["full_name", "cust_name"]).setTable "core" "customers"
        ⟨true, [⟨"legal_name", "varchar(200)", true⟩, ⟨"cust_name", "varchar(200)", true⟩]⟩) := by
    simp only [afterRun?, planDrift, planColumns, orderedColumns_namedTwice]
    decide +kernel
  have second :
    (planDrift namedTwice ((customersWith ["full_name", "cust_name"]).setTable "core" "customers"
      ⟨true, [⟨"legal_name", "varchar(200)", true⟩, ⟨"cust_name", "varchar(200)", true⟩]⟩) .postgres
        {}).warnings = [] := by
    simp only [planDrift, planColumns, orderedColumns_namedTwice]
    decide +kernel
  have keeps :=
    always namedTwice (customersWith ["full_name", "cust_name"]) _ .postgres {} (by decide)
      (distinctColumns_customersWith (by decide)) run
  have again := (keeps.columns ⟨"core", "customers"⟩ "name" ["full_name", "cust_name"]
    (by rw [first]; exact List.mem_singleton_self _)).1
  rw [second] at again
  cases again

end Warehouse
