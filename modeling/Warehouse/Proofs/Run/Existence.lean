/-
Module: Warehouse.Proofs.Run.Existence
Purpose: Whether the statements of a run find the schemas and tables that they name. A run creates a
  missing table before anything else, also before the schema that the table belongs to; so a missing
  schema is made in time only for a table that is there already, and all other tables that the load
  reads have to be there from the beginning.
Trusted boundary: none
Main exports: target?_of_loadStatements, ThereForLoad, CreatesMissing, SchemaInTime,
  creates_before_use_iff
-/
import Warehouse.Proofs.Drift.Existence
import Warehouse.Proofs.Load.Reads
import Warehouse.Run.Script

namespace Warehouse

open Sql (Definition Dialect ObjectName Statement)

/-! ### Loads -/

section

variable {c : Catalog} {d : Dataset} {s : Statement}

/-- The statements of a history change the history only. -/
theorem target?_of_historyStatements {statements : List Statement}
    (made : historyStatements c d = .ok statements) (member : s ∈ statements) :
    s.target? = some d.objectName := by
  obtain ⟨h, hash, changed, new, rfl, _, _, third, fourth, rfl⟩ :=
    exists_history_of_historyStatements made
  simp only [List.mem_cons, List.not_mem_nil, or_false] at member
  rcases member with rfl | rfl | rfl | rfl
  · rfl
  · rfl
  · exact congrArg some (History.of_insertVersions third).1
  · exact congrArg some (History.of_insertVersions fourth).1

private theorem target_of_deleteDetection {delete : Sql.Delete}
    (made : deleteDetection c d = .ok delete) : delete.target = d.objectName := by
  obtain ⟨input, primary, known⟩ := exists_input_of_deleteDetection made
  obtain ⟨join, _, rfl⟩ := deleteDetection_eq primary known made
  rfl

/-- Every statement of a load that is no view changes rows of the dataset's table. -/
theorem target?_of_loadStatements {plan : LoadPlan} {transactional : Bool} {planned : List Planned}
    (table : plan.mode ≠ .view) (made : loadStatements c d plan transactional = .ok planned)
    (member : .ok s ∈ planned) : s.target? = some d.objectName := by
  rw [loadStatements] at made
  split at made
  · next view => exact absurd view table
  · obtain ⟨source, _, same⟩ := bind_eq_ok_iff.mp made
    cases same
    simp only [List.mem_cons, List.not_mem_nil, or_false, Except.ok.injEq] at member
    rcases member with rfl | rfl <;> rfl
  · obtain ⟨source, _, same⟩ := bind_eq_ok_iff.mp made
    cases same
    cases List.mem_singleton.mp member
    rfl
  · obtain ⟨source, _, same⟩ := bind_eq_ok_iff.mp made
    cases same
    cases List.mem_singleton.mp member
    rfl
  · obtain ⟨source, _, same⟩ := bind_eq_ok_iff.mp made
    cases same
    rcases List.mem_cons.mp member with merged | member
    · cases merged
      rfl
    · split at member
      · cases detected : deleteDetection c d with
        | error _ =>
          rw [detected] at member
          cases List.mem_singleton.mp member
        | ok delete =>
          rw [detected] at member
          cases List.mem_singleton.mp member
          exact congrArg some (target_of_deleteDetection detected)
      · cases member
  · obtain ⟨statements, stated, same⟩ := bind_eq_ok_iff.mp made
    cases same
    obtain ⟨s', member, same⟩ := List.mem_map.mp member
    cases same
    exact target?_of_historyStatements stated member

end

/-- A load that is no view has statements. -/
theorem exists_mem_of_loadStatements {plan : LoadPlan} {transactional : Bool}
    {load : List Statement} (table : plan.mode ≠ .view)
    (made : loadStatements c d plan transactional = .ok (load.map .ok)) :
    ∃ s, s ∈ load := by
  have some_ {planned : Planned} {rest : List Planned} (same : planned :: rest = load.map .ok) :
      ∃ s, s ∈ load := by
    cases load with
    | nil => cases same
    | cons s _ => exact ⟨s, List.mem_cons_self⟩
  rw [loadStatements] at made
  split at made
  · next view => exact absurd view table
  all_goals obtain ⟨x, stated, same⟩ := bind_eq_ok_iff.mp made
  · exact some_ (Except.ok.inj same)
  · exact some_ (Except.ok.inj same)
  · exact some_ (Except.ok.inj same)
  · exact some_ (Except.ok.inj same)
  · obtain ⟨_, _, _, _, _, _, _, _, _, rfl⟩ := exists_history_of_historyStatements stated
    exact some_ (Except.ok.inj same)

/-! ### Runs -/

/-- Whether the load of a dataset finds a table: its schema was there from the beginning or is the
dataset's, and the table is the dataset's own, or was there from the beginning and is not renamed by
the plan. -/
def ThereForLoad (d : Dataset) (live : LiveSchema) (plan : DriftPlan) (t : ObjectName) : Prop :=
  ∃ schema, t.schema = some schema ∧
    (live.hasSchema schema = true ∨ Text.lower schema = Text.lower d.schema) ∧
    (LiveSchema.tableName schema t.name = LiveSchema.tableName d.schema d.name ∨
      (live.hasTable schema t.name = true ∧ ∀ former,
        .renameTable d.schema former d.name ∈ plan.steps →
        LiveSchema.tableName schema t.name ≠ LiveSchema.tableName d.schema former))

/-- Whether `statements` create the table of a dataset if a plan says that it is missing, and do
nothing else. -/
def CreatesMissing (d : Dataset) (plan : DriftPlan) (statements : List Statement) : Prop :=
  statements.map .ok = if plan.tableExists then [] else [plannedTable d]

section

variable {c : Catalog} {live : LiveSchema} {policy : DriftPolicy} {dialect : Dialect} {d : Dataset}
    {plan : LoadPlan}

/-- The statements of a step that could all be made: those that see to the table, then those of the
load. -/
theorem of_stepStatements {statements : List Statement} (resolved : resolveLoadPlan c d = .ok plan)
    (table : plan.mode ≠ .view)
    (stated : stepStatements c live policy dialect d = .ok (statements.map .ok)) :
    ∃ created load, statements = created ++
      stepDefinitions (planDrift d live dialect policy).steps ++ load ∧
      loadStatements c d plan true = .ok (load.map .ok) ∧
      CreatesMissing d (planDrift d live dialect policy) created := by
  rw [stepStatements, resolved] at stated
  simp only [Except.mapError, bind, Except.bind, if_neg table] at stated
  split at stated
  · cases stated
  · obtain ⟨own, load, rfl, ownMade, loadMade⟩ :=
      List.map_eq_append_iff.mp (Except.ok.inj stated).symm
    obtain ⟨created, steps, rfl, createdMade, stepsMade⟩ := List.map_eq_append_iff.mp ownMade
    have injective : Function.Injective (.ok : Statement → Planned) :=
      fun _ _ same => Except.ok.inj same
    have sameSteps : steps = stepDefinitions (planDrift d live dialect policy).steps := by
      refine List.map_injective_iff.mpr injective ?_
      rw [stepsMade, stepDefinitions, List.map_map]
      rfl
    rw [sameSteps]
    refine ⟨created, load, rfl, ?_, createdMade⟩
    rw [composedStatements] at loadMade
    split at loadMade
    · next planned composed =>
      obtain ⟨_, _, stated⟩ := bind_eq_ok_iff.mp composed
      rw [stated, loadMade]
    · next e _ =>
      obtain ⟨s, _, impossible⟩ :=
        List.mem_map.mp (loadMade ▸ List.mem_singleton_self (.error e : Planned))
      cases impossible

/-- A script is made of the table if it is missing, the steps of the plan, and the load. -/
theorem stepStatements_of_parts {created load : List Statement}
    (resolved : resolveLoadPlan c d = .ok plan) (table : plan.mode ≠ .view)
    (unblocked : (planDrift d live dialect policy).isBlocked = false)
    (capable : checkCapabilities plan dialect = .ok ())
    (made : CreatesMissing d (planDrift d live dialect policy) created)
    (loaded : loadStatements c d plan true = .ok (load.map .ok)) :
    stepStatements c live policy dialect d =
      .ok ((created ++ stepDefinitions (planDrift d live dialect policy).steps ++ load).map
        .ok) := by
  have composed : composedStatements c d plan dialect = load.map .ok := by
    rw [composedStatements, capable, loaded]
    rfl
  have own : tableStatements d (planDrift d live dialect policy) =
      (created ++ stepDefinitions (planDrift d live dialect policy).steps).map .ok := by
    rw [tableStatements, ← made, List.map_append, stepDefinitions, List.map_map]
    rfl
  rw [stepStatements, resolved]
  simp only [Except.mapError, bind, Except.bind, if_neg table, unblocked]
  rw [if_neg Bool.false_ne_true, own, composed, ← List.map_append]
  rfl

/-- Whether the schema of a dataset is there when its table is first used: from the beginning, or
because it is made for a table that is there. -/
def SchemaInTime (d : Dataset) (live : LiveSchema) (plan : DriftPlan) : Prop :=
  live.hasSchema d.schema = true ∨ (plan.tableExists = true ∧ .ensureSchema d.schema ∈ plan.steps)

/-- A table that is found is not created. -/
theorem tableExists_of_found {physical : String} (found : physicalTable? d live = some physical) :
    (planDrift d live dialect policy).tableExists = true := by
  obtain ⟨_, plan⟩ := planDrift_of_found dialect policy found
  rw [plan, planColumns]

private theorem tableExists_of_lost (lost : physicalTable? d live = none) :
    (planDrift d live dialect policy).tableExists = false := by
  obtain ⟨_, _, plan⟩ := planDrift_of_lost dialect policy lost
  rw [plan]

/-- A table that is missing is created by one statement. -/
theorem exists_createTable {created : List Statement} (made : created.map .ok = [plannedTable d]) :
    ∃ columns, created = [.definition (.createTable d.objectName columns)] := by
  obtain ⟨s, rfl, same⟩ := List.map_eq_singleton_iff.mp made
  rw [plannedTable] at same
  cases specified : columnSpecs d with
  | error e =>
    rw [specified] at same
    cases same
  | ok columns =>
    rw [specified] at same
    cases same
    exact ⟨columns, rfl⟩

variable {created : List Statement}

/-- Nothing is created where the table is found. -/
theorem CreatesMissing.eq_nil {physical : String} (found : physicalTable? d live = some physical)
    (made : CreatesMissing d (planDrift d live dialect policy) created) : created = [] := by
  rw [CreatesMissing, tableExists_of_found found] at made
  exact List.map_eq_nil_iff.mp made

private theorem CreatesMissing.exists_columns (lost : physicalTable? d live = none)
    (made : CreatesMissing d (planDrift d live dialect policy) created) :
    ∃ columns, created = [.definition (.createTable d.objectName columns)] := by
  rw [CreatesMissing, tableExists_of_lost lost] at made
  exact exists_createTable made

/-- Once the table has been seen to, there are the schemas from before, and the dataset's if the
plan makes it. -/
theorem CreatesMissing.hasSchema_iff
    (made : CreatesMissing d (planDrift d live dialect policy) created) {schema : String} :
    ((created ++ stepDefinitions (planDrift d live dialect policy).steps).foldl Statement.after
      live).hasSchema
        schema = true ↔
      live.hasSchema schema = true ∨
      (.ensureSchema d.schema ∈ (planDrift d live dialect policy).steps ∧
        Text.lower schema = Text.lower d.schema) := by
  have noSchema (name : String) : .definition (.createSchema name) ∉ created := by
    intro member
    cases found : physicalTable? d live with
    | some physical =>
      rw [made.eq_nil found] at member
      cases member
    | none =>
      obtain ⟨columns, rfl⟩ := made.exists_columns found
      cases List.mem_singleton.mp member
  rw [hasSchema_foldl_after]
  refine or_congr_right ?_
  constructor
  · intro ⟨name, member, same⟩
    rcases List.mem_append.mp member with early | planned
    · exact absurd early (noSchema name)
    · have asked := createSchema_mem_iff.mp planned
      cases (ensureSchema_mem_iff.mp asked).1
      exact ⟨asked, same⟩
  · intro ⟨asked, same⟩
    exact ⟨d.schema, List.mem_append_right _ (createSchema_mem_iff.mpr asked), same⟩

/-- The statements that see to the table find what they name if the schema is there in time. Then
the dataset's table is there, and all tables from before but one that was renamed. -/
theorem CreatesMissing.run (made : CreatesMissing d (planDrift d live dialect policy) created)
    (inTime : SchemaInTime d live (planDrift d live dialect policy)) :
    CreatesBeforeUse live (created ++ stepDefinitions (planDrift d live dialect policy).steps) ∧
    ∀ schema name,
      ((created ++ stepDefinitions (planDrift d live dialect policy).steps).foldl Statement.after
        live).hasTable
          schema name = true ↔
        LiveSchema.tableName schema name = LiveSchema.tableName d.schema d.name ∨
          (live.hasTable schema name = true ∧
            ∀ former, .renameTable d.schema former d.name ∈
              (planDrift d live dialect policy).steps →
              LiveSchema.tableName schema name ≠ LiveSchema.tableName d.schema former) := by
  cases found : physicalTable? d live with
  | some physical =>
    rw [made.eq_nil found, List.nil_append]
    exact steps_run_of_found found (inTime.imp_right And.right)
  | none =>
    obtain ⟨columns, rfl⟩ := made.exists_columns found
    have there : live.hasSchema d.schema = true := by
      rcases inTime with there | ⟨tableThere, _⟩
      · exact there
      · rw [tableExists_of_lost found] at tableThere
        cases tableThere
    have away : live.hasTable d.schema d.name = false := by
      cases here : live.hasTable d.schema d.name with
      | false => rfl
      | true =>
        rw [physicalTable?, if_pos here] at found
        cases found
    have after : (Statement.definition (.createTable d.objectName columns)).after live =
        live.setTable d.schema d.name ⟨true, []⟩ := by
      rw [Dataset.objectName, Statement.after, away, if_neg Bool.false_ne_true]
    have finds : (Statement.definition (.createTable d.objectName columns)).FindsNames live := by
      constructor
      · intro t used
        cases used
      · intro t created schema named
        cases created
        cases named
        exact there
    obtain ⟨schemaCreates, sameTables⟩ := schemaFinding_run d live dialect policy
      (live.setTable d.schema d.name ⟨true, []⟩)
    have noRename (former : String) :
        .renameTable d.schema former d.name ∉ (schemaFinding d live dialect policy).1 :=
      fun planned => by cases ensureSchema_of_mem planned
    rw [steps_of_lost found, List.singleton_append, CreatesBeforeUse, List.foldl_cons, after]
    refine ⟨⟨finds, schemaCreates⟩, fun schema name => ?_⟩
    rw [(agreeOn_of_tables sameTables schema name).hasTable, hasTable_setTable]
    by_cases own : LiveSchema.tableName schema name = LiveSchema.tableName d.schema d.name
    · simp [own]
    · simp [own, noRename]

/-- After the table has been seen to, the load finds the tables that it can. -/
theorem CreatesMissing.hasObject_iff
    (made : CreatesMissing d (planDrift d live dialect policy) created)
    (inTime : SchemaInTime d live (planDrift d live dialect policy)) {t : ObjectName} :
    ((created ++ stepDefinitions (planDrift d live dialect policy).steps).foldl Statement.after
      live).HasObject t ↔ ThereForLoad d live (planDrift d live dialect policy) t := by
  have schemas {schema : String} : live.hasSchema schema = true ∨
      (.ensureSchema d.schema ∈ (planDrift d live dialect policy).steps ∧
        Text.lower schema = Text.lower d.schema) ↔
      live.hasSchema schema = true ∨ Text.lower schema = Text.lower d.schema := by
    constructor
    · exact Or.imp_right And.right
    · rintro (there | same)
      · exact .inl there
      · rcases inTime with there | ⟨_, planned⟩
        · rw [LiveSchema.hasSchema, ← same, ← LiveSchema.hasSchema] at there
          exact .inl there
        · exact .inr ⟨planned, same⟩
  rw [LiveSchema.HasObject, ThereForLoad]
  simp only [made.hasSchema_iff, (made.run inTime).2, schemas]

/-- If the statements before the load find what they name, and the load finds the dataset's table,
then the schema was there in time. -/
theorem CreatesMissing.schemaInTime
    (made : CreatesMissing d (planDrift d live dialect policy) created)
    (work : CreatesBeforeUse live
      (created ++ stepDefinitions (planDrift d live dialect policy).steps))
      (own : ((created ++ stepDefinitions (planDrift d live dialect policy).steps).foldl
        Statement.after
      live).HasObject d.objectName) : SchemaInTime d live (planDrift d live dialect policy) := by
  cases found : physicalTable? d live with
  | some physical =>
    obtain ⟨schema, named, there, _⟩ := own
    cases named
    rcases made.hasSchema_iff.mp there with before | ⟨planned, _⟩
    · exact .inl before
    · exact .inr ⟨tableExists_of_found found, planned⟩
  | none =>
    -- The table is created by the first statement, in a schema that has to be there already.
    obtain ⟨columns, rfl⟩ := made.exists_columns found
    exact .inl (work.1.creates d.objectName rfl d.schema rfl)

/-- When every statement of a run finds the schemas and tables that it names: exactly if the schema
of the dataset is there, or is made first for a table that is there, and the load reads only tables
that it finds. -/
theorem creates_before_use_iff {statements : List Statement}
    (resolved : resolveLoadPlan c d = .ok plan) (table : plan.mode ≠ .view)
    (stated : stepStatements c live policy dialect d = .ok (statements.map .ok)) :
    ∃ load : List Statement, loadStatements c d plan true = .ok (load.map .ok) ∧
      (CreatesBeforeUse live statements ↔ SchemaInTime d live (planDrift d live dialect policy) ∧
        ∀ s ∈ load, ∀ t ∈ s.tables, ThereForLoad d live (planDrift d live dialect policy) t) := by
  obtain ⟨created, load, rfl, loaded, made⟩ := of_stepStatements resolved table stated
  refine ⟨load, loaded, ?_⟩
  have changes {s : Statement} (member : s ∈ load) : s.target? = some d.objectName :=
    target?_of_loadStatements table loaded (List.mem_map_of_mem member)
  have inert : ∀ s ∈ load, ∀ live, s.after live = live :=
    fun s member => after_of_target? (changes member)
  rw [createsBeforeUse_append, createsBeforeUse_iff_of_inert inert]
  constructor
  · intro ⟨work, finds⟩
    obtain ⟨s, member⟩ := exists_mem_of_loadStatements table loaded
    have own := (findsNames_iff_of_target? (changes member)).mp (finds s member)
    have inTime := made.schemaInTime work own.1
    refine ⟨inTime, fun s member t read => ?_⟩
    obtain ⟨_, there⟩ := (findsNames_iff_of_target? (changes member)).mp (finds s member)
    exact (made.hasObject_iff inTime).mp (there t read)
  · intro ⟨inTime, there⟩
    refine ⟨(made.run inTime).1, fun s member => ?_⟩
    refine (findsNames_iff_of_target? (changes member)).mpr ⟨?_, fun t read => ?_⟩
    · refine (made.hasObject_iff inTime).mpr ⟨d.schema, rfl, .inr rfl, .inl rfl⟩
    · exact (made.hasObject_iff inTime).mpr (there s member t read)

end

/-! ### Names that are imported -/

/-- Names of customers, copied from a table outside the warehouse. -/
def importedNames : Dataset :=
  { arrivals with
    id := 2
    schema := "core"
    name := "names"
    sources := [⟨"crm", some "stage", "customers"⟩]
    columns := [Column.plain "Name" "varchar(200)" 1] }

def importCatalog : Catalog where
  schemas := [⟨"core", .rawcore, true, false, true⟩]
  datasets := [importedNames]
  queryNodes := []

/-- A database with the customers and with nothing of the catalog. -/
def customersOnly : LiveSchema :=
  LiveSchema.empty.withTable "stage" "customers" [⟨"Name", "varchar(200)", true⟩]

/-- The statement that creates the table of names. -/
def createNames : Statement :=
  .definition (.createTable importedNames.objectName [⟨"Name", .varchar 200, true⟩])

/-- The load of the names. -/
def loadNames : List Statement :=
  [.definition (.truncate importedNames.objectName),
   .insert ⟨importedNames.objectName, ["Name"],
     .select ⟨false, [⟨.colOf loadAlias "Name", some "Name"⟩],
     some (.table ⟨⟨some "stage", "customers"⟩, some loadAlias⟩), none, []⟩⟩]

private theorem resolveLoadPlan_importedNames :
    resolveLoadPlan importCatalog importedNames = .ok ⟨importedNames.key, .full, false, false⟩ := by
  decide

private theorem orderedColumns_importedNames :
    importedNames.orderedColumns = importedNames.columns :=
  List.mergeSort_of_pairwise (by decide)

private theorem loadStatements_importedNames :
    loadStatements importCatalog importedNames ⟨importedNames.key, .full, false, false⟩ true =
      .ok (loadNames.map .ok) := by
  have source (applyFilter : Bool) :
    sourceQuery importCatalog importedNames applyFilter = .ok ⟨["Name"],
      .select ⟨false, [⟨.colOf loadAlias "Name", some "Name"⟩],
        some (.table ⟨⟨some "stage", "customers"⟩, some loadAlias⟩), none, []⟩⟩ := by
    simp only [sourceQuery, mappedSource, orderedColumns_importedNames]
    cases applyFilter <;> rfl
  rw [loadStatements, source]
  rfl

/-- The plan for the names asks for their schema, and finds no table. -/
theorem planDrift_importedNames : planDrift importedNames customersOnly .postgres {} =
    ⟨importedNames.key, [.ensureSchema "core"], [.missingTable importedNames.key], [], false,
      false⟩ := by
  rfl

private theorem columnSpecs_importedNames :
    columnSpecs importedNames = .ok [⟨"Name", .varchar 200, true⟩] := by
  rw [columnSpecs, orderedColumns_importedNames]
  rfl

private theorem createsMissing_createNames {plan : DriftPlan} (missing : plan.tableExists = false) :
    CreatesMissing importedNames plan [createNames] := by
  rw [CreatesMissing, missing, plannedTable, columnSpecs_importedNames]
  rfl

/-- Where the schema is there, a run creates everything before it uses it. -/
theorem names_created_before_use :
    ∃ statements : List Statement,
      stepStatements importCatalog (customersOnly.withSchema "core") {} .postgres importedNames =
        .ok (statements.map .ok) ∧
      CreatesBeforeUse (customersOnly.withSchema "core") statements := by
  have plan : planDrift importedNames (customersOnly.withSchema "core") .postgres {} =
      ⟨importedNames.key, [], [.missingTable importedNames.key], [], false, false⟩ := by
    rfl
  have created : CreatesMissing importedNames
      (planDrift importedNames (customersOnly.withSchema "core") .postgres {}) [createNames] :=
    createsMissing_createNames (by rw [plan])
  have stated :=
    stepStatements_of_parts resolveLoadPlan_importedNames (by decide)
      (by rw [plan]; rfl) rfl created
    loadStatements_importedNames
  refine ⟨_, stated, ?_⟩
  obtain ⟨load, loaded, exactly⟩ :=
    creates_before_use_iff resolveLoadPlan_importedNames (by decide) stated
  have same : load = loadNames := by
    rw [loadStatements_importedNames] at loaded
    exact (List.map_injective_iff.mpr (fun _ _ => Except.ok.inj) (Except.ok.inj loaded)).symm
  refine exactly.mpr ⟨.inl rfl, ?_⟩
  intro s member t read
  rw [same] at member
  rcases List.mem_cons.mp member with rfl | member
  · cases read
  · cases List.mem_singleton.mp member
    cases List.mem_singleton.mp read
    refine ⟨"stage", rfl, .inl rfl, .inr ⟨rfl, fun former renamed => ?_⟩⟩
    rw [plan] at renamed
    cases renamed

/-- Not every run creates things before it uses them: a missing table is created in a schema that is
made only by the statement after it. -/
theorem not_always_created_before_use :
    stepStatements importCatalog customersOnly {} .postgres importedNames =
        .ok ((createNames :: .definition (.createSchema "core") :: loadNames).map .ok) ∧
      ¬ CreatesBeforeUse customersOnly
        (createNames :: .definition (.createSchema "core") :: loadNames) := by
  constructor
  · have created : CreatesMissing importedNames (planDrift importedNames customersOnly .postgres {})
        [createNames] :=
      createsMissing_createNames (by rw [planDrift_importedNames])
    have stated := stepStatements_of_parts resolveLoadPlan_importedNames (by decide)
      (by rw [planDrift_importedNames]; rfl) rfl created loadStatements_importedNames
    rw [stated, planDrift_importedNames]
    rfl
  · intro ⟨finds, _⟩
    have there := finds.creates importedNames.objectName rfl "core" rfl
    have absent : customersOnly.hasSchema "core" = false := rfl
    rw [absent] at there
    cases there

end Warehouse
