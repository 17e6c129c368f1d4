/-
Module: Warehouse.Proofs.Drift.Existence
Purpose: Whether statements find the schemas and tables that they name. Statements are followed one
  after another, with what each of them creates and renames; so are the steps of a plan, which find
  what they name if the schema of the dataset is there or made by the plan.
Trusted boundary: human-reviewed spec (what a statement needs to be there)
Main exports: Statement.uses, Statement.creates?, Statement.FindsNames, Statement.after,
  CreatesBeforeUse, findsNames_iff_of_target?, hasSchema_foldl_after, stepDefinitions,
  steps_run_of_found
-/
import Warehouse.Load.DeleteDetection
import Warehouse.Proofs.Drift.Applied
import Warehouse.Proofs.Sql.Tables

namespace Warehouse

open Sql (Definition Dialect ObjectName Statement)

/-! ### Names

What a statement asks of a live schema, and what it leaves there. A definition of a table needs the
schema, and every other statement on a table needs the table; a schema or a table that is created is
there for the statements behind. -/

/-- Whether a table of that name is there, in a schema that is there. A name without a schema
belongs to no schema that a description lists. -/
def LiveSchema.HasObject (live : LiveSchema) (t : ObjectName) : Prop :=
  ∃ schema, t.schema = some schema ∧ live.hasSchema schema = true ∧
    live.hasTable schema t.name = true

namespace Sql.Statement

/-- The table whose rows a statement changes. -/
def target? : Statement → Option ObjectName
  | .definition (.truncate t) => some t
  | .definition _ => none
  | .insert s => some s.target
  | .update s => some s.target
  | .delete s => some s.target
  | .merge s => some s.target

/-- The table whose definition a statement changes. -/
def altered? : Statement → Option ObjectName
  | .definition (.addColumn t _) | .definition (.renameColumn t _ _)
    | .definition (.renameTable t _)
  | .definition (.alterColumnType t _ _) => some t
  | _ => none

/-- The tables that a statement takes to be there. -/
def uses (s : Statement) : List ObjectName := s.target?.toList ++ s.altered?.toList ++ s.tables

/-- The table or view that a statement creates. -/
def creates? : Statement → Option ObjectName
  | .definition (.createTable t _) => some t
  | .definition (.createView t _) => some t
  | _ => none

/-- Whether the tables that a statement uses are there, and the schema of what it creates. -/
structure FindsNames (live : LiveSchema) (s : Statement) : Prop where
  uses : ∀ t ∈ s.uses, live.HasObject t
  creates : ∀ t ∈ s.creates?, ∀ schema ∈ t.schema, live.hasSchema schema = true

/-- The database after a statement, as far as its schemas and tables go; the columns of tables are
not kept up. A name without a schema is none of the database's. -/
def after (live : LiveSchema) : Statement → LiveSchema
  | .definition (.createSchema schema) => live.withSchema schema
  | .definition (.createTable ⟨some schema, name⟩ _)
    | .definition (.createView ⟨some schema, name⟩ _) =>
    if live.hasTable schema name then live else live.setTable schema name ⟨true, []⟩
  | .definition (.renameTable ⟨some schema, former⟩ name) =>
    (live.setTable schema former ⟨false, []⟩).setTable schema name
      ⟨true, live.columns schema former⟩
  | _ => live

end Sql.Statement

/-- Whether each of the statements finds what it names, once those before it have been carried
out. -/
def CreatesBeforeUse (live : LiveSchema) : List Statement → Prop
  | [] => True
  | s :: rest => s.FindsNames live ∧ CreatesBeforeUse (s.after live) rest

section

variable {live : LiveSchema}

/-- Two scripts one after the other find their names if the first does, and the second does in what
the first leaves behind. -/
theorem createsBeforeUse_append {first second : List Statement} :
    CreatesBeforeUse live (first ++ second) ↔
      CreatesBeforeUse live first ∧ CreatesBeforeUse (first.foldl Statement.after live) second := by
  induction first generalizing live with
  | nil => simp [CreatesBeforeUse]
  | cons s rest ih =>
    rw [List.cons_append, CreatesBeforeUse, CreatesBeforeUse, ih, List.foldl_cons, and_assoc]

/-- Statements that leave schemas and tables as they are need everything from the beginning. -/
theorem createsBeforeUse_iff_of_inert {statements : List Statement}
    (inert : ∀ s ∈ statements, ∀ live, s.after live = live) :
    CreatesBeforeUse live statements ↔ ∀ s ∈ statements, s.FindsNames live := by
  induction statements generalizing live with
  | nil => simp [CreatesBeforeUse]
  | cons s rest ih =>
    rw [CreatesBeforeUse, inert s List.mem_cons_self,
      ih fun s' member => inert s' (List.mem_cons_of_mem s member), List.forall_mem_cons]

/-- Statements that create nothing and rename nothing leave the schema as it is. -/
private theorem foldl_after_of_inert {statements : List Statement}
    (inert : ∀ s ∈ statements, ∀ live, s.after live = live) :
    statements.foldl Statement.after live = live := by
  induction statements generalizing live with
  | nil => rfl
  | cons s rest ih =>
    rw [List.foldl_cons, inert s List.mem_cons_self,
      ih fun s' member => inert s' (List.mem_cons_of_mem s member)]

end

section

variable {t : ObjectName} {s : Statement}

/-- A statement that changes rows leaves schemas and tables as they are. -/
theorem after_of_target? (changes : s.target? = some t) (live : LiveSchema) :
    s.after live = live := by
  cases s with
  | definition statement => cases statement <;> first | rfl | cases changes
  | _ => rfl

/-- A statement that changes rows of a table finds its names if the table is there, and those that
it reads. -/
theorem findsNames_iff_of_target? (changes : s.target? = some t) {live : LiveSchema} :
    s.FindsNames live ↔ live.HasObject t ∧ ∀ u ∈ s.tables, live.HasObject u := by
  have nothingAltered : s.altered? = none := by
    cases s with
    | definition statement => cases statement <;> first | rfl | cases changes
    | _ => rfl
  have nothingCreated : s.creates? = none := by
    cases s with
    | definition statement => cases statement <;> first | rfl | cases changes
    | _ => rfl
  have uses : s.uses = t :: s.tables := by
    rw [Statement.uses, changes, nothingAltered]
    rfl
  constructor
  · intro finds
    have all := finds.uses
    rw [uses] at all
    exact List.forall_mem_cons.mp all
  · intro there
    constructor
    · rw [uses]
      exact List.forall_mem_cons.mpr there
    · rw [nothingCreated]
      intro _ created
      cases created

end

/-! ### The dataset's own table -/

section

variable {live : LiveSchema} {schema name schema' name' : String}

/-- Names that agree up to case are names of the same table. -/
theorem hasTable_congr
    (same : LiveSchema.tableName schema' name' = LiveSchema.tableName schema name) :
    live.hasTable schema' name' = live.hasTable schema name := by
  rw [LiveSchema.hasTable, LiveSchema.hasTable, LiveSchema.table?, LiveSchema.table?, same]

/-- A table that is put somewhere is there under all names that agree up to case. -/
theorem hasTable_setTable (t : LiveTable) : (live.setTable schema name t).hasTable schema' name' =
    if LiveSchema.tableName schema' name' = LiveSchema.tableName schema name then t.present
    else live.hasTable schema' name' := by
  by_cases same : LiveSchema.tableName schema' name' = LiveSchema.tableName schema name
  · have found : (live.setTable schema name t).table? schema' name' = some t := by
      have itself : (live.setTable schema name t).table? schema name = some t :=
        LiveSchema.table?_setTable_self t
      rw [LiveSchema.table?] at itself ⊢
      rw [same, itself]
    rw [if_pos same, LiveSchema.hasTable, found]
  · rw [if_neg same, LiveSchema.hasTable, LiveSchema.hasTable,
      LiveSchema.table?_setTable_of_ne t same]

/-- A schema that is created is there, and so is what was there before. -/
private theorem hasSchema_withSchema : (live.withSchema schema).hasSchema schema' = true ↔
    live.hasSchema schema' = true ∨ Text.lower schema' = Text.lower schema := by
  simp [LiveSchema.hasSchema, LiveSchema.withSchema]

/-- A statement that creates no schema leaves the schemas as they are. -/
theorem schemas_after {s : Statement} (other : ∀ made, s ≠ .definition (.createSchema made)) :
    (s.after live).schemas = live.schemas := by
  cases s with
  | definition statement =>
    cases statement with
    | createSchema made => exact absurd rfl (other made)
    | createTable t columns =>
      obtain ⟨schema?, name⟩ := t
      cases schema? with
      | none => rfl
      | some schema =>
        rw [Statement.after]
        split <;> rfl
    | createView t query =>
      obtain ⟨schema?, name⟩ := t
      cases schema? with
      | none => rfl
      | some schema =>
        rw [Statement.after]
        split <;> rfl
    | renameTable t name =>
      obtain ⟨schema?, former⟩ := t
      cases schema? <;> rfl
    | _ => rfl
  | _ => rfl

/-- After statements there are the schemas from before and those that were created. -/
theorem hasSchema_foldl_after {statements : List Statement} :
    (statements.foldl Statement.after live).hasSchema schema = true ↔ live.hasSchema schema = true ∨
      ∃ made, .definition (.createSchema made) ∈ statements ∧
        Text.lower schema = Text.lower made := by
  induction statements generalizing live with
  | nil => simp
  | cons s rest ih =>
    rw [List.foldl_cons, ih]
    by_cases creates : ∃ made, s = .definition (.createSchema made)
    · obtain ⟨made, rfl⟩ := creates
      rw [Statement.after, hasSchema_withSchema]
      simp [or_assoc]
    · have other : ∀ made, s ≠ .definition (.createSchema made) :=
        fun made same => creates ⟨made, same⟩
      rw [LiveSchema.hasSchema, schemas_after other, ← LiveSchema.hasSchema]
      simp [(other _).symm]

end

section

variable {dialect : Dialect} {policy : DriftPolicy} {d : Dataset} {live : LiveSchema}
    {physical : String}

/-- The statements of the steps of a plan. -/
def stepDefinitions (steps : List DriftStep) : List Statement :=
  steps.map fun s => .definition s.definition

private theorem stepDefinitions_append (first second : List DriftStep) :
    stepDefinitions (first ++ second) = stepDefinitions first ++ stepDefinitions second :=
  List.map_append

/-- What is done to the columns of a table uses the table, and leaves schemas and tables as they
are. -/
theorem of_mem_verdictSteps {columns : List LiveColumn} {s : DriftStep}
    (asked : s ∈ verdictSteps d (tableVerdicts dialect policy d columns)) :
    (∀ live, (Statement.definition s.definition).after live = live) ∧
      (Statement.definition s.definition).uses = [d.objectName] ∧
      (Statement.definition s.definition).creates? = none := by
  rcases mem_verdictSteps_iff.mp asked with ⟨_, _, rfl⟩ | ⟨_, _, rfl⟩ | ⟨_, _, rfl⟩
  · exact ⟨fun _ => rfl, rfl, rfl⟩
  · exact ⟨fun _ => rfl, rfl, rfl⟩
  · exact ⟨fun _ => rfl, rfl, rfl⟩

/-- A plan renames a table just if it is found under a former name. -/
theorem renameTable_mem_iff (found : physicalTable? d live = some physical) {former : String} :
    .renameTable d.schema former d.name ∈ (planDrift d live dialect policy).steps ↔
      former = physical ∧ physical ≠ d.name := by
  rw [steps_of_found found, List.mem_append, List.mem_append]
  constructor
  · rintro ((ofSchema | ofTable) | ofColumns)
    · cases ensureSchema_of_mem ofSchema
    · rw [tableSteps] at ofTable
      split at ofTable
      · cases ofTable
      · next other =>
        cases List.mem_singleton.mp ofTable
        exact ⟨rfl, other⟩
    · cases table?_of_mem_verdictSteps ofColumns
  · rintro ⟨rfl, other⟩
    rw [tableSteps, if_neg other]
    exact .inl (.inr (List.mem_singleton_self _))

/-- A plan creates no schema but the dataset's. -/
theorem ensureSchema_mem_iff {schema : String} :
    .ensureSchema schema ∈ (planDrift d live dialect policy).steps ↔
      schema = d.schema ∧ .ensureSchema d.schema ∈ (schemaFinding d live dialect policy).1 := by
  constructor
  · intro planned
    have ofSchema : DriftStep.ensureSchema schema ∈ (schemaFinding d live dialect policy).1 := by
      cases found : physicalTable? d live with
      | none =>
        rw [steps_of_lost found] at planned
        exact planned
      | some physical =>
        rw [steps_of_found found, List.mem_append, List.mem_append] at planned
        rcases planned with (ofSchema | ofTable) | ofColumns
        · exact ofSchema
        · rw [tableSteps] at ofTable
          split at ofTable
          · cases ofTable
          · cases List.mem_singleton.mp ofTable
        · cases table?_of_mem_verdictSteps ofColumns
    cases ensureSchema_of_mem ofSchema
    exact ⟨rfl, ofSchema⟩
  · rintro ⟨rfl, ofSchema⟩
    cases found : physicalTable? d live with
    | none =>
      rw [steps_of_lost found]
      exact ofSchema
    | some physical =>
      rw [steps_of_found found]
      exact List.mem_append_left _ (List.mem_append_left _ ofSchema)

/-- A schema is created by the step that ensures it, and by no other. -/
theorem createSchema_mem_iff {steps : List DriftStep} {schema : String} :
    .definition (.createSchema schema) ∈ stepDefinitions steps ↔ .ensureSchema schema ∈ steps := by
  rw [stepDefinitions, List.mem_map]
  constructor
  · intro ⟨s, planned, same⟩
    cases s with
    | ensureSchema _ =>
      cases same
      exact planned
    | _ => cases same
  · intro planned
    exact ⟨_, planned, rfl⟩

/-- Seeing to the schema changes no table and uses nothing. -/
theorem schemaFinding_run (d : Dataset) (live : LiveSchema) (dialect : Dialect)
    (policy : DriftPolicy) (start : LiveSchema) :
    CreatesBeforeUse start (stepDefinitions (schemaFinding d live dialect policy).1) ∧
      ((stepDefinitions (schemaFinding d live dialect policy).1).foldl Statement.after
        start).tables = start.tables := by
  rcases schemaFinding_cases d live dialect policy with nothing | ensure
  · rw [nothing]
    exact ⟨trivial, rfl⟩
  · rw [ensure]
    refine ⟨⟨⟨?_, ?_⟩, trivial⟩, rfl⟩
    · intro t used
      cases used
    · intro t created
      cases created

/-- The step that gives a table its name uses the table as it is called. Then the table is there,
unless by the former name. -/
theorem tableSteps_run (found : physicalTable? d live = some physical)
    (schema : live.hasSchema d.schema = true) :
    CreatesBeforeUse live (stepDefinitions (tableSteps d physical)) ∧ ∀ schema name,
      ((stepDefinitions (tableSteps d physical)).foldl Statement.after live).hasTable schema
        name = true ↔ LiveSchema.tableName schema name = LiveSchema.tableName d.schema d.name ∨
          (live.hasTable schema name = true ∧ (physical ≠ d.name →
            LiveSchema.tableName schema name ≠ LiveSchema.tableName d.schema physical)) := by
  have here := hasTable_physical found
  rw [tableSteps]
  split
  · next same =>
    subst same
    refine ⟨trivial, fun schema name => ?_⟩
    constructor
    · intro there
      exact .inr ⟨there, fun other => absurd rfl other⟩
    · rintro (own | ⟨there, _⟩)
      · exact (hasTable_congr own).trans here
      · exact there
  · next other =>
    constructor
    · refine ⟨⟨?_, ?_⟩, trivial⟩
      · intro t used
        cases List.mem_singleton.mp used
        exact ⟨d.schema, rfl, schema, here⟩
      · intro t created
        cases created
    · intro schema name
      change ((live.setTable d.schema physical ⟨false, []⟩).setTable d.schema d.name
        ⟨true, live.columns d.schema physical⟩).hasTable schema name = true ↔ _
      rw [hasTable_setTable, hasTable_setTable]
      by_cases own : LiveSchema.tableName schema name = LiveSchema.tableName d.schema d.name
      · simp [own]
      · by_cases former : LiveSchema.tableName schema name = LiveSchema.tableName d.schema physical
        · simp [former, other]
        · simp [own, former]

/-- What is done to the columns of a table uses the table, and leaves schemas and tables as they
are. -/
theorem verdictSteps_run {columns : List LiveColumn} (there : live.HasObject d.objectName) :
    CreatesBeforeUse live
      (stepDefinitions (verdictSteps d (tableVerdicts dialect policy d columns))) ∧
      (stepDefinitions (verdictSteps d (tableVerdicts dialect policy d columns))).foldl
        Statement.after live = live := by
  have inert : ∀ s ∈ stepDefinitions (verdictSteps d (tableVerdicts dialect policy d columns)),
      ∀ live, s.after live = live := by
    intro s member
    obtain ⟨step, asked, rfl⟩ := List.mem_map.mp member
    exact (of_mem_verdictSteps asked).1
  refine ⟨(createsBeforeUse_iff_of_inert inert).mpr fun s member => ?_, foldl_after_of_inert inert⟩
  obtain ⟨step, asked, rfl⟩ := List.mem_map.mp member
  obtain ⟨_, uses, creates⟩ := of_mem_verdictSteps asked
  constructor
  · intro t used
    rw [uses] at used
    rw [List.mem_singleton.mp used]
    exact there
  · intro t created
    rw [creates] at created
    cases created

/-- The steps for a table that is found use nothing but the table, in a schema that is there or made
first. Then the table is there under its name, and all other tables are as before. -/
theorem steps_run_of_found (found : physicalTable? d live = some physical)
    (schema : live.hasSchema d.schema = true ∨
      .ensureSchema d.schema ∈ (planDrift d live dialect policy).steps) :
    CreatesBeforeUse live (stepDefinitions (planDrift d live dialect policy).steps) ∧ ∀ schema name,
      ((stepDefinitions (planDrift d live dialect policy).steps).foldl Statement.after
        live).hasTable schema name =
          true ↔
        LiveSchema.tableName schema name = LiveSchema.tableName d.schema d.name ∨
          (live.hasTable schema name = true ∧
            ∀ former, .renameTable d.schema former d.name ∈
              (planDrift d live dialect policy).steps →
              LiveSchema.tableName schema name ≠ LiveSchema.tableName d.schema former) := by
  obtain ⟨schemaCreates, sameTables⟩ := schemaFinding_run d live dialect policy live
  have schemaReady :
    ((stepDefinitions (schemaFinding d live dialect policy).1).foldl Statement.after
      live).hasSchema d.schema = true := by
    rw [hasSchema_foldl_after]
    refine schema.imp_right fun planned => ⟨d.schema, ?_, rfl⟩
    exact createSchema_mem_iff.mpr (ensureSchema_mem_iff.mp planned).2
  simp only [renameTable_mem_iff found]
  simp only [steps_of_found found, stepDefinitions_append, createsBeforeUse_append,
    List.foldl_append]
  generalize (stepDefinitions (schemaFinding d live dialect policy).1).foldl Statement.after live =
    ready at *
  have sameHere (schema name : String) : ready.hasTable schema name = live.hasTable schema name :=
    (agreeOn_of_tables sameTables schema name).hasTable
  have foundReady : physicalTable? d ready = some physical :=
    (physicalTable?_congr (agreeOn_of_tables sameTables)).trans found
  obtain ⟨tableCreates, tables⟩ := tableSteps_run foundReady schemaReady
  have there : ((stepDefinitions (tableSteps d physical)).foldl Statement.after ready).HasObject
      d.objectName := by
    refine ⟨d.schema, rfl, ?_, (tables d.schema d.name).mpr (.inl rfl)⟩
    rw [hasSchema_foldl_after]
    exact .inl schemaReady
  obtain ⟨columnsCreate, same⟩ := verdictSteps_run there
  refine ⟨⟨⟨schemaCreates, tableCreates⟩, columnsCreate⟩, fun schema name => ?_⟩
  rw [same, tables, sameHere]
  constructor
  · rintro (own | ⟨before, other⟩)
    · exact .inl own
    · exact .inr ⟨before, fun former renamed => renamed.1 ▸ other renamed.2⟩
  · rintro (own | ⟨before, other⟩)
    · exact .inl own
    · exact .inr ⟨before, fun renamed => other physical ⟨rfl, renamed⟩⟩

end

end Warehouse
