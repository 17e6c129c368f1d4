/-
Module: Warehouse.Proofs.Drift.Applied
Purpose: A drift plan can be carried out, and no column gets lost on the way. The plan is taken
  apart into what it does to the schema, to the name of the table and to the columns; the three do
  not disturb one another.
Trusted boundary: none
Main exports: physicalTable?, tableSteps, steps_of_found, warnings_of_found, planDrift_of_lost,
  PlanDone, exists_planRun, LosesNothing, drift_applicable
-/
import Warehouse.Proofs.Drift.Verdicts

namespace Warehouse

open Sql (ColumnSpec DataType Definition Dialect)

/-! ### The parts of a plan -/

/-- The name under which the table of a dataset is found, if it is clear which table that is. -/
def physicalTable? (d : Dataset) (live : LiveSchema) : Option String :=
  if live.hasTable d.schema d.name then some d.name
  else match formerTables d live with
    | [former] => some former
    | _ => none

/-- What is done to the name of a table. -/
def tableSteps (d : Dataset) (physical : String) : List DriftStep :=
  if physical = d.name then [] else [.renameTable d.schema physical d.name]

section

variable {dialect : Dialect} {policy : DriftPolicy} {d : Dataset} {live : LiveSchema}
    {physical : String}

/-- The former tables are those of the former names under which there is a table. -/
theorem mem_formerTables {former : String} :
    former ∈ formerTables d live ↔ former ∈ d.formerNames ∧
    live.hasTable d.schema former = true := by
  rw [formerTables, List.mem_eraseDups, List.mem_filter]

/-- A table is found under the name of the dataset, or else under its only former name. -/
theorem physicalTable?_cases (found : physicalTable? d live = some physical) :
    (physical = d.name ∧ live.hasTable d.schema d.name = true) ∨
      (live.hasTable d.schema d.name = false ∧ formerTables d live = [physical] ∧
        physical ≠ d.name) := by
  rw [physicalTable?] at found
  split at found
  · next here => exact .inl ⟨(Option.some.inj found).symm, here⟩
  · next away =>
    split at found
    · next former only =>
      obtain rfl := Option.some.inj found
      have member : former ∈ formerTables d live := by
        rw [only]; exact List.mem_singleton_self former
      refine .inr ⟨by simpa using away, only, ?_⟩
      intro same
      exact away (same ▸ (mem_formerTables.mp member).2)
    · cases found

/-- A table that is found is there. -/
theorem hasTable_physical (found : physicalTable? d live = some physical) :
    live.hasTable d.schema physical = true := by
  rcases physicalTable?_cases found with ⟨rfl, here⟩ | ⟨_, only, _⟩
  · exact here
  · have member : physical ∈ formerTables d live := by
      rw [only]; exact List.mem_singleton_self physical
    exact (mem_formerTables.mp member).2

/-- Which table is found depends on which tables there are, and on nothing else. -/
theorem physicalTable?_congr {after : LiveSchema}
    (agree : ∀ schema table, live.AgreeOn after schema table) :
    physicalTable? d after = physicalTable? d live := by
  rw [physicalTable?, physicalTable?, formerTables, formerTables, (agree _ _).hasTable,
    funext fun table => (agree d.schema table).hasTable]

/-- The plan for a table that is found, in one piece. -/
theorem planDrift_of_found (dialect : Dialect) (policy : DriftPolicy)
    (found : physicalTable? d live = some physical) :
    ∃ backfill, planDrift d live dialect policy = planColumns d live dialect policy physical
      { dataset := d.key, steps := (schemaFinding d live dialect policy).1 ++ tableSteps d physical,
        warnings := (schemaFinding d live dialect policy).2, blockers :=
      [], requiresBackfill := backfill,
        tableExists := false } := by
  rcases physicalTable?_cases found with ⟨rfl, here⟩ | ⟨away, only, other⟩
  · refine ⟨false, ?_⟩
    simp only [planDrift, here, tableSteps, if_true, List.append_nil]
  · refine ⟨true, ?_⟩
    simp only [planDrift, away, only, tableSteps, if_neg other, Bool.false_eq_true, if_false]

/-- The steps for a table that is found: the schema, the table, and then its columns. -/
theorem steps_of_found (found : physicalTable? d live = some physical) :
    (planDrift d live dialect policy).steps = (schemaFinding d live dialect policy).1 ++
      tableSteps d physical ++
      verdictSteps d (tableVerdicts dialect policy d (live.columns d.schema physical)) := by
  obtain ⟨_, plan⟩ := planDrift_of_found dialect policy found
  rw [plan, planColumns, verdictSteps, tableVerdicts]
  simp only [List.append_assoc]

/-- What is reported of a table that is found. -/
theorem warnings_of_found (found : physicalTable? d live = some physical) :
    (planDrift d live dialect policy).warnings = (schemaFinding d live dialect policy).2 ++
      (if (live.columns d.schema physical).isEmpty then [.noColumnsReturned d.key] else []) ++
      (tableVerdicts dialect policy d (live.columns d.schema physical)).filterMap
      (columnWarning? d) := by
  obtain ⟨_, plan⟩ := planDrift_of_found dialect policy found
  rw [plan, planColumns, tableVerdicts]

/-- A plan that is not blocked has a type for every column that it adds. -/
theorem resolved_of_unblocked (found : physicalTable? d live = some physical)
    (unblocked : (planDrift d live dialect policy).blockers = []) {c : Column} {v : ColumnVerdict}
    (member : (c, v) ∈ tableVerdicts dialect policy d (live.columns d.schema physical)) :
    v ≠ .unresolved := by
  obtain ⟨_, plan⟩ := planDrift_of_found dialect policy found
  rw [plan] at unblocked
  rintro rfl
  have blocker : columnBlocker? d (c, .unresolved) = none :=
    List.filterMap_eq_nil_iff.mp unblocked _ member
  cases blocker

/-- The plan for a table that is not found, in one piece. -/
theorem planDrift_of_lost (dialect : Dialect) (policy : DriftPolicy)
    (lost : physicalTable? d live = none) :
    ∃ w, (w = .missingTable d.key ∨ w = .ambiguousTableRename d.key (formerTables d live)) ∧
      planDrift d live dialect policy =
        { dataset := d.key, steps := (schemaFinding d live dialect policy).1,
          warnings := (schemaFinding d live dialect policy).2 ++ [w], blockers := [],
          requiresBackfill := false, tableExists := false } := by
  have away : live.hasTable d.schema d.name = false := by
    cases here : live.hasTable d.schema d.name
    · rfl
    · rw [physicalTable?, if_pos here] at lost
      cases lost
  rw [physicalTable?, away, if_neg Bool.false_ne_true] at lost
  match formers : formerTables d live, lost with
  | [], _ =>
    refine ⟨_, .inl rfl, ?_⟩
    simp only [planDrift, away, formers, Bool.false_eq_true, if_false]
  | _ :: _ :: _, _ =>
    refine ⟨_, .inr rfl, ?_⟩
    simp only [planDrift, away, formers, Bool.false_eq_true, if_false]

/-- Nothing is planned for the columns of a table that is not found. -/
theorem steps_of_lost (lost : physicalTable? d live = none) :
    (planDrift d live dialect policy).steps = (schemaFinding d live dialect policy).1 := by
  obtain ⟨_, _, plan⟩ := planDrift_of_lost dialect policy lost
  rw [plan]

/-! ### The schema -/

/-- At most one step is planned for a schema, and that is to create it. -/
theorem schemaFinding_cases (d : Dataset) (live : LiveSchema) (dialect : Dialect)
    (policy : DriftPolicy) : (schemaFinding d live dialect policy).1 = [] ∨
      (schemaFinding d live dialect policy).1 = [.ensureSchema d.schema] := by
  unfold schemaFinding
  split
  · split
    · exact .inr rfl
    · exact .inl rfl
  · exact .inl rfl

theorem ensureSchema_of_mem {s : DriftStep}
    (planned : s ∈ (schemaFinding d live dialect policy).1) : s = .ensureSchema d.schema := by
  rcases schemaFinding_cases d live dialect policy with nothing | ensure
  · rw [nothing] at planned
    cases planned
  · rw [ensure] at planned
    exact List.mem_singleton.mp planned

theorem schemaNotCreatable_of_mem {w : DriftWarning}
    (reported : w ∈ (schemaFinding d live dialect policy).2) :
    w = .schemaNotCreatable d.schema dialect := by
  unfold schemaFinding at reported
  split at reported
  · split at reported
    · cases reported
    · exact List.mem_singleton.mp reported
  · cases reported

/-- What is reported of a table that is found. -/
theorem of_mem_warnings {w : DriftWarning} (found : physicalTable? d live = some physical)
    (reported : w ∈ (planDrift d live dialect policy).warnings) :
    w = .schemaNotCreatable d.schema dialect ∨ w = .noColumnsReturned d.key ∨
      ∃ v ∈ tableVerdicts dialect policy d (live.columns d.schema physical),
      columnWarning? d v = some w := by
  rw [warnings_of_found found, List.mem_append, List.mem_append] at reported
  rcases reported with (ofSchema | ofTable) | ofColumns
  · exact .inl (schemaNotCreatable_of_mem ofSchema)
  · split at ofTable
    · exact .inr (.inl (List.mem_singleton.mp ofTable))
    · cases ofTable
  · exact .inr (.inr (List.mem_filterMap.mp ofColumns))

/-- Once the schema is seen to, nothing is left to do about it, and no table has changed. -/
theorem afterSteps?_schemaFinding (d : Dataset) (live : LiveSchema) (dialect : Dialect)
    (policy : DriftPolicy) :
    ∃ after, afterSteps? dialect live (schemaFinding d live dialect policy).1 = some after ∧
      after.tables = live.tables ∧
      ∀ later : LiveSchema, later.schemas = after.schemas →
        (schemaFinding d later dialect policy).1 = [] := by
  rcases schemaFinding_cases d live dialect policy with nothing | ensure
  · refine ⟨live, by rw [nothing]; rfl, rfl, fun later same => ?_⟩
    rw [← nothing, schemaFinding, schemaFinding, LiveSchema.hasSchema, LiveSchema.hasSchema, same]
  · refine ⟨live.withSchema d.schema, by rw [ensure]; rfl, rfl, fun later same => ?_⟩
    have there : later.hasSchema d.schema = true := by
      rw [LiveSchema.hasSchema, same]
      simp [LiveSchema.withSchema]
    rw [schemaFinding, there, Bool.not_true, Bool.and_false, if_neg Bool.false_ne_true]

/-- Databases with the same tables agree on each of them. -/
theorem agreeOn_of_tables {after : LiveSchema} (same : after.tables = live.tables)
    (schema table : String) : live.AgreeOn after schema table := by
  rw [LiveSchema.AgreeOn, LiveSchema.table?, LiveSchema.table?, same]

/-! ### All of a plan -/

/-- What a plan leaves behind: the schema is seen to, the table has its name, its columns are as the
verdicts want them, and all other tables are as before. -/
structure PlanDone (dialect : Dialect) (policy : DriftPolicy) (d : Dataset) (physical : String)
    (live after : LiveSchema) : Prop where
  schemaDone : (schemaFinding d after dialect policy).1 = []
  there : after.hasTable d.schema d.name = true
  columns : VerdictsDone (tableVerdicts dialect policy d (live.columns d.schema physical))
    (live.columns d.schema physical) (after.columns d.schema d.name)
  others : ∀ schema table, LiveSchema.tableName schema table ≠
    LiveSchema.tableName d.schema physical →
    LiveSchema.tableName schema table ≠ LiveSchema.tableName d.schema d.name →
    live.AgreeOn after schema table

/-- The table gets its name. -/
theorem afterSteps?_tableSteps (dialect : Dialect) (found : physicalTable? d live = some physical) :
    ∃ after, afterSteps? dialect live (tableSteps d physical) = some after ∧
      after.schemas = live.schemas ∧ after.hasTable d.schema d.name = true ∧
      after.columns d.schema d.name = live.columns d.schema physical ∧
      ∀ schema table, LiveSchema.tableName schema table ≠ LiveSchema.tableName d.schema physical →
        LiveSchema.tableName schema table ≠ LiveSchema.tableName d.schema d.name →
        live.AgreeOn after schema table := by
  rcases physicalTable?_cases found with ⟨rfl, here⟩ | ⟨away, only, other⟩
  · refine ⟨live, ?_, rfl, here, rfl, fun _ _ _ _ => rfl⟩
    rw [tableSteps, if_pos rfl]
    rfl
  · obtain ⟨after, renamed, rest⟩ := renameTable?_eq_some (hasTable_physical found) away
    refine ⟨after, ?_, rest⟩
    rw [tableSteps, if_neg other, afterSteps?, List.foldlM_cons, DriftStep.after?, renamed]
    rfl

/-- Every step for a column is one on the table of the dataset. -/
theorem table?_of_mem_verdictSteps {vs : List (Column × ColumnVerdict)} {s : DriftStep}
    (member : s ∈ verdictSteps d vs) : s.table? = some (d.schema, d.name) := by
  rcases mem_verdictSteps_iff.mp member with ⟨_, _, rfl⟩ | ⟨_, _, rfl⟩ | ⟨_, _, rfl⟩ <;> rfl

/-- Steps that can be done one after the other can be done as one list. -/
private theorem afterSteps?_append {dialect : Dialect} {live live₁ : LiveSchema}
    {steps steps' : List DriftStep} (first : afterSteps? dialect live steps = some live₁) :
    afterSteps? dialect live (steps ++ steps') = afterSteps? dialect live₁ steps' := by
  rw [afterSteps?] at first
  rw [afterSteps?, List.foldlM_append, first]
  rfl

/-- A plan for a table that is found can be carried out to the end, and changes its columns by what
the verdicts on them ask for. -/
theorem exists_planRun (dialect : Dialect) (policy : DriftPolicy) (distinct : d.DistinctLowerNames)
    (found : physicalTable? d live = some physical) :
    ∃ after, afterSteps? dialect live (planDrift d live dialect policy).steps = some after ∧
      (verdictSteps d (tableVerdicts dialect policy d (live.columns d.schema physical))).foldlM
        (fun cs s => s.onColumns? dialect cs) (live.columns d.schema physical) =
          some (after.columns d.schema d.name) ∧
      PlanDone dialect policy d physical live after := by
  obtain ⟨live₁, schema, tables, settled⟩ := afterSteps?_schemaFinding d live dialect policy
  have agree := agreeOn_of_tables tables
  have found₁ : physicalTable? d live₁ = some physical := by
    rw [physicalTable?_congr agree, found]
  obtain ⟨live₂, named, schemas₂, there₂, columns₂, others₂⟩ :=
    afterSteps?_tableSteps dialect found₁
  obtain ⟨columns, run, done⟩ :=
    exists_verdictsDone dialect policy (live.columns d.schema physical) distinct
  obtain ⟨after, changed, after_changed⟩ := afterSteps?_ofTable dialect
    (fun s member => table?_of_mem_verdictSteps member) there₂
    (by rw [columns₂, (agree _ _).columns, run])
  refine ⟨after, ?_, by rw [after_changed.columns, run], ?_, after_changed.there,
    by rw [after_changed.columns]; exact done, ?_⟩
  · rw [steps_of_found found, List.append_assoc, afterSteps?_append schema,
      afterSteps?_append named, changed]
  · exact settled after (after_changed.schemas.trans schemas₂)
  · intro schema table apart other
    have first := agree schema table
    have second := others₂ schema table apart other
    have third := after_changed.others schema table other
    rw [LiveSchema.AgreeOn] at first second third ⊢
    rw [third, second, first]

/-- A plan for a table that is found can be carried out, and leaves the columns as it decided. -/
theorem exists_planDone (dialect : Dialect) (policy : DriftPolicy) (distinct : d.DistinctLowerNames)
    (found : physicalTable? d live = some physical) :
    ∃ after, afterSteps? dialect live (planDrift d live dialect policy).steps = some after ∧
      PlanDone dialect policy d physical live after := by
  obtain ⟨after, run, _, done⟩ := exists_planRun dialect policy distinct found
  exact ⟨after, run, done⟩

end

/-! ### Nothing gets lost

A plan renames, adds and retypes. After its steps every table and every column that was there is
still there under its name, unless the plan renamed it, and then it is there under the new name. -/

/-- The names that steps give to a table, with its schema. -/
def newTableNames (steps : List DriftStep) (schema table : String) : List (String × String) :=
  steps.filterMap fun
    | .renameTable schema' former name =>
      if LiveSchema.tableName schema' former = LiveSchema.tableName schema table then
        some (schema', name)
      else none
    | _ => none

/-- The names that steps give to a column of a table. -/
def newColumnNames (steps : List DriftStep) (schema table column : String) : List String :=
  steps.filterMap fun
    | .renameColumn schema' table' former name =>
      if LiveSchema.tableName schema' table' = LiveSchema.tableName schema table ∧
        former = column then
        some name
      else none
    | _ => none

/-- Whether steps lose no column. Every table is there afterwards, under the one name that it was
given or else its own; so is every column of it, in its place, under its own name or the one that it
was given; and new columns stand behind them. -/
def LosesNothing (steps : List DriftStep) (live after : LiveSchema) : Prop :=
  ∀ schema table, live.hasTable schema table = true → ∃ schema' table',
    (newTableNames steps schema table = [(schema', table')] ∨
      newTableNames steps schema table = [] ∧ schema' = schema ∧ table' = table) ∧
    after.hasTable schema' table' = true ∧
    ∃ kept added, (after.columns schema' table').map LiveColumn.name = kept ++ added ∧
      List.Forall₂ (fun c name => name = c.name ∨
        newColumnNames steps schema' table' c.name = [name]) (live.columns schema table) kept

section

variable {dialect : Dialect} {policy : DriftPolicy} {d : Dataset} {live : LiveSchema}
    {physical : String}

private theorem newTableNames_append (steps steps' : List DriftStep) (schema table : String) :
    newTableNames (steps ++ steps') schema table =
      newTableNames steps schema table ++ newTableNames steps' schema table :=
  List.filterMap_append

private theorem newColumnNames_append (steps steps' : List DriftStep)
    (schema table column : String) : newColumnNames (steps ++ steps') schema table column =
      newColumnNames steps schema table column ++ newColumnNames steps' schema table column :=
  List.filterMap_append

/-- What is done to the schema renames nothing. -/
theorem newNames_schemaFinding (schema table column : String) :
    newTableNames (schemaFinding d live dialect policy).1 schema table = [] ∧
      newColumnNames (schemaFinding d live dialect policy).1 schema table column = [] := by
  rcases schemaFinding_cases d live dialect policy with nothing | ensure
  · rw [nothing]
    exact ⟨rfl, rfl⟩
  · rw [ensure]
    exact ⟨rfl, rfl⟩

private theorem newTableNames_tableSteps (schema table : String) :
    newTableNames (tableSteps d physical) schema table =
      if physical ≠ d.name ∧ LiveSchema.tableName d.schema physical =
        LiveSchema.tableName schema table then
        [(d.schema, d.name)]
      else [] := by
  rw [tableSteps]
  by_cases same : physical = d.name
  · rw [if_pos same, if_neg fun renamed => renamed.1 same]
    rfl
  · rw [if_neg same]
    by_cases here : LiveSchema.tableName d.schema physical = LiveSchema.tableName schema table <;>
      simp [newTableNames, same, here]

private theorem newColumnNames_tableSteps (schema table column : String) :
    newColumnNames (tableSteps d physical) schema table column = [] := by
  rw [tableSteps]
  split <;> rfl

private theorem newTableNames_verdictSteps (vs : List (Column × ColumnVerdict))
    (schema table : String) : newTableNames (verdictSteps d vs) schema table = [] := by
  rw [newTableNames, List.filterMap_eq_nil_iff]
  intro s member
  have own := table?_of_mem_verdictSteps member
  cases s <;> first | rfl | cases own

/-- Of what verdicts ask for, only the renames give names. -/
theorem newColumnNames_verdictSteps (vs : List (Column × ColumnVerdict)) (column : String) :
    newColumnNames (verdictSteps d vs) d.schema d.name column =
      ((vs.filterMap renamed?).filter fun r => r.1 = column).map Prod.snd := by
  have adds : newColumnNames (vs.filterMap (addStep? d)) d.schema d.name column = [] := by
    rw [newColumnNames, List.filterMap_filterMap, List.filterMap_eq_nil_iff]
    rintro ⟨c, v⟩ _
    cases v <;> rfl
  have retypes : newColumnNames (vs.filterMap (retypeStep? d)) d.schema d.name column = [] := by
    rw [newColumnNames, List.filterMap_filterMap, List.filterMap_eq_nil_iff]
    rintro ⟨c, v⟩ _
    cases v <;> rfl
  rw [verdictSteps, newColumnNames_append, newColumnNames_append, adds, retypes, List.append_nil,
    List.append_nil, newColumnNames, List.filterMap_filterMap, ← List.filterMap_eq_filter,
    List.filterMap_filterMap, List.map_filterMap]
  refine List.filterMap_congr ?_
  rintro ⟨c, v⟩ _
  cases v with
  | rename former =>
    by_cases here : former.name = column <;> simp [renameStep?, renamed?, Option.guard, here]
  | _ => rfl

/-- A column that a verdict renames is given one name. -/
theorem newColumnNames_of_renamed {columns : List LiveColumn} {former name : String}
    (member : (former, name) ∈ (tableVerdicts dialect policy d columns).filterMap renamed?) :
    newColumnNames (verdictSteps d (tableVerdicts dialect policy d columns)) d.schema
      d.name former = [name] := by
  have apart := (formers_apart dialect policy d columns [] d.orderedColumns).1
  have once : ((tableVerdicts dialect policy d columns).filterMap renamed?).Nodup :=
    List.Nodup.of_map _ apart
  have only : ((tableVerdicts dialect policy d columns).filterMap renamed?).filter
      (fun r => r.1 = former) = [(former, name)] := by
    refine List.perm_singleton.mp ((List.perm_ext_iff_of_nodup (once.filter _)
      (List.nodup_singleton _)).mpr fun r => ?_)
    rw [List.mem_filter, List.mem_singleton, decide_eq_true_eq]
    constructor
    · rintro ⟨other, same⟩
      exact List.inj_on_of_nodup_map apart other member (congrArg Text.lower same)
    · rintro rfl
      exact ⟨member, rfl⟩
  rw [newColumnNames_verdictSteps, only]
  rfl

/-- The table that a plan is about, under its name in any case, has all its columns. -/
theorem kept_of_planDone (found : physicalTable? d live = some physical) {after : LiveSchema}
    (done : PlanDone dialect policy d physical live after) {schema table : String}
    (same : LiveSchema.tableName schema table = LiveSchema.tableName d.schema d.name) :
    after.hasTable schema table = true ∧
      ∃ kept added, (after.columns schema table).map LiveColumn.name = kept ++ added ∧
        List.Forall₂ (fun c name => name = c.name ∨
            newColumnNames (planDrift d live dialect policy).steps schema table c.name = [name])
          (live.columns d.schema physical) kept := by
  obtain ⟨kept, added, names, each⟩ := done.columns.kept
  have asked (column : String) :
    newColumnNames (planDrift d live dialect policy).steps schema table column =
      newColumnNames
        (verdictSteps d (tableVerdicts dialect policy d (live.columns d.schema physical)))
        d.schema d.name column := by
    rw [steps_of_found found, newColumnNames_append, newColumnNames_append,
      (newNames_schemaFinding _ _ _).2, newColumnNames_tableSteps, newColumnNames,
      newColumnNames, same]
    rfl
  have there := done.there
  rw [LiveSchema.hasTable, LiveSchema.table?, ← same] at there
  rw [LiveSchema.columns, LiveSchema.table?, ← same] at names
  refine ⟨there, kept, added, names, each.imp fun c name => Or.imp_right fun renamed => ?_⟩
  rw [asked, newColumnNames_of_renamed renamed]

/-- A table about which nothing is said loses nothing. -/
theorem kept_of_agreeOn {after : LiveSchema} {schema table : String}
    (agree : live.AgreeOn after schema table) (there : live.hasTable schema table = true)
    (steps : List DriftStep) :
    after.hasTable schema table = true ∧
      ∃ kept added, (after.columns schema table).map LiveColumn.name = kept ++ added ∧
        List.Forall₂ (fun c name => name = c.name ∨
          newColumnNames steps schema table c.name = [name]) (live.columns schema table) kept := by
  have there' : after.hasTable schema table = true := by rw [agree.hasTable, there]
  refine ⟨there', (live.columns schema table).map LiveColumn.name, [], ?_, ?_⟩
  · rw [agree.columns, List.append_nil]
  · exact List.forall₂_map_right_iff.mpr (List.forall₂_same.mpr fun c _ => .inl rfl)

/-- No table and no column gets lost when a plan for a table that is found is carried out. -/
theorem losesNothing_of_found (found : physicalTable? d live = some physical) {after : LiveSchema}
    (done : PlanDone dialect policy d physical live after) :
    LosesNothing (planDrift d live dialect policy).steps live after := by
  intro schema table there
  have tables : newTableNames (planDrift d live dialect policy).steps schema table =
      newTableNames (tableSteps d physical) schema table := by
    rw [steps_of_found found, newTableNames_append, newTableNames_append,
      newTableNames_verdictSteps,
      (newNames_schemaFinding schema table "").1, List.append_nil, List.nil_append]
  rw [newTableNames_tableSteps] at tables
  by_cases own : LiveSchema.tableName d.schema physical = LiveSchema.tableName schema table
  · have columns : live.columns schema table = live.columns d.schema physical := by
      rw [LiveSchema.columns, LiveSchema.columns, LiveSchema.table?, LiveSchema.table?, own]
    rw [columns]
    by_cases named : physical = d.name
    · rw [if_neg fun renamed => renamed.1 named] at tables
      exact ⟨schema, table, .inr ⟨tables, rfl, rfl⟩,
        kept_of_planDone found done (by rw [← own, named])⟩
    · rw [if_pos ⟨named, own⟩] at tables
      exact ⟨d.schema, d.name, .inl tables, kept_of_planDone found done rfl⟩
  · rw [if_neg fun both => own both.2] at tables
    refine ⟨schema, table, .inr ⟨tables, rfl, rfl⟩, kept_of_agreeOn ?_ there _⟩
    rcases physicalTable?_cases found with ⟨rfl, _⟩ | ⟨away, _, _⟩
    · exact done.others schema table (Ne.symm own) (Ne.symm own)
    · refine done.others schema table (Ne.symm own) fun same => ?_
      rw [LiveSchema.hasTable, LiveSchema.table?, same] at there
      rw [LiveSchema.hasTable, LiveSchema.table?, there] at away
      cases away

/-- A plan with a change of columns in it is for a table that is found. -/
theorem found_of_columnStep {s : DriftStep} (planned : s ∈ (planDrift d live dialect policy).steps)
    (ofTable : s.table?.isSome) : ∃ physical, physicalTable? d live = some physical := by
  cases found : physicalTable? d live with
  | some physical => exact ⟨physical, rfl⟩
  | none =>
    rw [steps_of_lost found] at planned
    obtain rfl := ensureSchema_of_mem planned
    cases ofTable

end

/-- Every plan can be carried out, step by step, and no column is lost; and columns are changed only
if the table is there under its name or under a single former one. -/
theorem drift_applicable {d : Dataset} (distinct : d.DistinctLowerNames) (live : LiveSchema)
    (dialect : Dialect) (policy : DriftPolicy) :
    (∃ after, afterSteps? dialect live (planDrift d live dialect policy).steps = some after ∧
      LosesNothing (planDrift d live dialect policy).steps live after) ∧
    ((∃ s ∈ (planDrift d live dialect policy).steps, s.table?.isSome) →
      live.hasTable d.schema d.name = true ∨
        ∃ former ∈ d.formerNames, live.hasTable d.schema former = true ∧
          ∀ other ∈ d.formerNames, live.hasTable d.schema other = true → other = former) := by
  constructor
  · cases found : physicalTable? d live with
    | some physical =>
      obtain ⟨after, run, done⟩ := exists_planDone dialect policy distinct found
      exact ⟨after, run, losesNothing_of_found found done⟩
    | none =>
      obtain ⟨after, run, tables, _⟩ := afterSteps?_schemaFinding d live dialect policy
      rw [steps_of_lost found]
      refine ⟨after, run, fun schema table there => ⟨schema, table, .inr ⟨?_, rfl, rfl⟩, ?_⟩⟩
      · exact (newNames_schemaFinding schema table "").1
      · exact kept_of_agreeOn (agreeOn_of_tables tables schema table) there _
  · rintro ⟨s, planned, ofTable⟩
    obtain ⟨physical, found⟩ := found_of_columnStep planned ofTable
    rcases physicalTable?_cases found with ⟨_, here⟩ | ⟨_, only, _⟩
    · exact .inl here
    · have single (other : String) : other ∈ d.formerNames ∧ live.hasTable d.schema other = true ↔
          other = physical := by
        rw [← mem_formerTables, only, List.mem_singleton]
      obtain ⟨declared, there⟩ := (single physical).mpr rfl
      exact .inr ⟨physical, declared, there,
        fun other former present => (single other).mp ⟨former, present⟩⟩

/-! ### A table that was renamed -/

/-- Customers that were called clients and had names of their own for two of the columns; one column
is new. -/
def renamedCustomers : Dataset :=
  { customers with
    formerNames := ["clients", "persons"]
    columns :=
      [{ Column.plain "customers_key" "varchar(64)" 1 with role? := some .surrogateKey },
       Column.plain "id" "bigint" 2,
       { Column.plain "name" "varchar(200)" 3 with formerNames := ["ID", "Full_Name"] },
       Column.plain "email" "varchar(80)" 4] }

/-- The database before. -/
def clientDatabase : LiveSchema :=
  LiveSchema.empty.withTable "core" "Clients"
    [⟨"Clients_Key", "varchar(64)", false⟩, ⟨"Id", "integer", false⟩,
      ⟨"full_name", "varchar(200)", true⟩]

theorem orderedColumns_renamedCustomers :
    renamedCustomers.orderedColumns = renamedCustomers.columns :=
  List.mergeSort_of_pairwise (by decide)

/-- The plan for the clients: the table and two of its columns are renamed, a column is added, and
one gets another type. -/
theorem steps_renamedCustomers :
    (planDrift renamedCustomers clientDatabase .postgres ⟨true, true⟩).steps =
      [.renameTable "core" "clients" "customers",
       .renameColumn "core" "customers" "Clients_Key" "customers_key",
       .renameColumn "core" "customers" "full_name" "name",
       .addColumn "core" "customers" ⟨"email", .varchar 80, true⟩,
       .alterColumnType "core" "customers" "id" .int64] := by
  have found : physicalTable? renamedCustomers clientDatabase = some "clients" := by decide +kernel
  rw [steps_of_found found, tableVerdicts, orderedColumns_renamedCustomers]
  decide +kernel

/-- The plan for the clients can be carried out, and loses none of their columns. -/
theorem drift_applicable_to_clients :
    renamedCustomers.DistinctLowerNames ∧
    (∃ after, afterSteps? .postgres clientDatabase
        (planDrift renamedCustomers clientDatabase .postgres ⟨true, true⟩).steps = some after ∧
      LosesNothing (planDrift renamedCustomers clientDatabase .postgres ⟨true, true⟩).steps
        clientDatabase after) ∧
    (clientDatabase.hasTable "core" "customers" = true ∨
      ∃ former ∈ ["clients", "persons"], clientDatabase.hasTable "core" former = true ∧
        ∀ other ∈ ["clients", "persons"], clientDatabase.hasTable "core" other = true →
          other = former) := by
  have distinct : renamedCustomers.DistinctLowerNames := by decide
  obtain ⟨applied, single⟩ := drift_applicable distinct clientDatabase .postgres ⟨true, true⟩
  refine ⟨distinct, applied,
    single ⟨.addColumn "core" "customers" ⟨"email", .varchar 80, true⟩, ?_, rfl⟩⟩
  rw [steps_renamedCustomers]
  decide

end Warehouse
