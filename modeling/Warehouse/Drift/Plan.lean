/-
Module: Warehouse.Drift.Plan
Purpose: What has to be done to a table so that it fits its declaration. Columns are renamed rather
  than added where a former name points to exactly one live column, and so is the table itself;
  where it points to several nothing is done. Nothing is ever dropped. The plan also says what it
  noticed and did not do.
Trusted boundary: none
Main exports: DriftPolicy, DriftStep, DriftWarning, ColumnVerdict, DriftPlan, planDrift
-/
import Warehouse.Catalog.Dataset
import Warehouse.Drift.LiveSchema
import Warehouse.Drift.TypeComparison
import Warehouse.Sql.Definition

namespace Warehouse

open Sql (ColumnSpec DataType Definition Dialect ObjectName SqlError)

/-- What a plan may do. -/
structure DriftPolicy where
  allowAlterColumnType : Bool := false
  ensureSchema : Bool := true
deriving DecidableEq, Repr

/-- One change. -/
inductive DriftStep where
  | ensureSchema (schema : String)
  | renameTable (schema former name : String)
  | renameColumn (schema table former name : String)
  | addColumn (schema table : String) (column : ColumnSpec)
  | alterColumnType (schema table column : String) (type : DataType)
deriving DecidableEq, Repr

/-- The statement that makes a change. -/
def DriftStep.definition : DriftStep → Definition
  | ensureSchema schema => .createSchema schema
  | renameTable schema former name => .renameTable ⟨some schema, former⟩ name
  | renameColumn schema table former name => .renameColumn ⟨some schema, table⟩ former name
  | addColumn schema table column => .addColumn ⟨some schema, table⟩ column
  | alterColumnType schema table column type => .alterColumnType ⟨some schema, table⟩ column type

/-- Something that was noticed and left alone. -/
inductive DriftWarning where
  | schemaNotCreatable (schema : String) (dialect : Dialect)
  | missingTable (dataset : DatasetKey)
  | ambiguousTableRename (dataset : DatasetKey) (formers : List String)
  | noColumnsReturned (dataset : DatasetKey)
  | ambiguousRename (dataset : DatasetKey) (column : String) (formers : List String)
  | typeUnknown (dataset : DatasetKey) (column declared live : String)
  | typeDrift (dataset : DatasetKey) (column : String) (declared live : DataType)
deriving DecidableEq, Repr

def DriftWarning.message : DriftWarning → String
  | schemaNotCreatable schema dialect =>
    s!"SCHEMA_NOT_CREATABLE: schema '{schema}' is missing and {dialect.name} cannot create it"
  | missingTable dataset =>
    s!"MISSING_TABLE: {dataset.display} does not exist; table creation is left to the load"
  | ambiguousTableRename dataset formers =>
    s!"AMBIGUOUS_TABLE_RENAME: {dataset.display} matches former tables [" ++
      ", ".intercalate formers ++ "]; manual cleanup required"
  | noColumnsReturned dataset =>
    s!"NO_COLUMNS_RETURNED: {dataset.display} exists but introspection returned no columns; " ++
      "every declared column is planned as ADD COLUMN"
  | ambiguousRename dataset column formers =>
    s!"AMBIGUOUS_RENAME: {dataset.display}.{column} matches former columns [" ++
      ", ".intercalate formers ++ "]; manual cleanup required"
  | typeUnknown dataset column declared live =>
    s!"TYPE_UNKNOWN: {dataset.display}.{column}: cannot compare declared '{declared}' with live '{live}'"
  | typeDrift dataset column declared live =>
    s!"TYPE_DRIFT: {dataset.display}.{column}: declared {declared.display} but live is {live.display}"

/-- A column that cannot be added because its type is not one. -/
structure UnresolvedColumn where
  dataset : DatasetKey
  column : String
  datatype : String
deriving DecidableEq, Repr

def UnresolvedColumn.message (e : UnresolvedColumn) : String :=
  s!"UNRESOLVED_TYPE: {e.dataset.display}.{e.column} has unresolvable type '{e.datatype}'"

/-! ### Columns -/

/-- The live columns by their names in small letters; of two columns of one name the later
counts. -/
def liveColumn? (live : List LiveColumn) (lower : String) : Option LiveColumn :=
  live.reverse.find? fun c => Text.lower c.name = lower

/-- The names, in small letters and each once, under which a column may still be found. A surrogate
key that is named after its table was named after the former tables too. -/
def renameCandidates (d : Dataset) (c : Column) : List String :=
  let own := c.formerNames.map Text.lower
  let conventional :=
    if c.role? = some .surrogateKey ∧ Text.lower c.name = Text.lower (d.name ++ "_key") then
      d.formerNames.map fun f => Text.lower (f ++ "_key")
    else []
  (own ++ conventional).eraseDups

/-- What becomes of a declared column. -/
inductive ColumnVerdict where
  | keep
  | retype (type : DataType)
  | drifted (declared live : DataType)
  | incomparable (live : String)
  | rename (former : LiveColumn)
  | ambiguous (formers : List LiveColumn)
  | add (type : DataType)
  | unresolved
deriving DecidableEq, Repr

/-- What becomes of a column that is there. -/
def existingVerdict (dialect : Dialect) (policy : DriftPolicy) (c : Column) (live : LiveColumn) :
    ColumnVerdict :=
  match compareTypes dialect c.datatype live.datatype with
  | .same | .benign => .keep
  | .unknown => .incomparable live.datatype
  | .drift declared live =>
    if policy.allowAlterColumnType && dialect.hasAlterColumnType then .retype declared
    else .drifted declared live

/-- What becomes of a column that is not there, given the live columns that its former names point
to. -/
def missingVerdict (c : Column) : List LiveColumn → ColumnVerdict
  | [] =>
    match c.type? with
    | some type => .add type
    | none => .unresolved
  | [former] => .rename former
  | formers => .ambiguous formers

/-- What becomes of each column, in order. `claimed` has the live columns, in small letters, that
were renamed for the columns before; a live column under a declared name is not up for renaming
either. -/
def columnVerdicts (dialect : Dialect) (policy : DriftPolicy) (d : Dataset)
    (live : List LiveColumn) : List String → List Column → List (Column × ColumnVerdict)
  | _, [] => []
  | claimed, c :: rest =>
    match liveColumn? live (Text.lower c.name) with
    | some existing =>
      (c, existingVerdict dialect policy c existing) ::
        columnVerdicts dialect policy d live claimed rest
    | none =>
      let declared := d.columns.map fun c => Text.lower c.name
      let free := (renameCandidates d c).filter fun n =>
        ! declared.contains n && ! claimed.contains n
      let verdict := missingVerdict c (free.filterMap (liveColumn? live))
      let claimed := match verdict with
        | .rename former => Text.lower former.name :: claimed
        | _ => claimed
      (c, verdict) :: columnVerdicts dialect policy d live claimed rest

/-- The rename that a verdict asks for. -/
def renameStep? (d : Dataset) : Column × ColumnVerdict → Option DriftStep
  | (c, .rename former) => some (.renameColumn d.schema d.name former.name c.name)
  | _ => none

/-- The addition that a verdict asks for. A new column can be empty. -/
def addStep? (d : Dataset) : Column × ColumnVerdict → Option DriftStep
  | (c, .add type) => some (.addColumn d.schema d.name ⟨c.name, type, true⟩)
  | _ => none

/-- The change of type that a verdict asks for. -/
def retypeStep? (d : Dataset) : Column × ColumnVerdict → Option DriftStep
  | (c, .retype type) => some (.alterColumnType d.schema d.name c.name type)
  | _ => none

/-- What a verdict leaves alone. -/
def columnWarning? (d : Dataset) : Column × ColumnVerdict → Option DriftWarning
  | (c, .ambiguous formers) => some (.ambiguousRename d.key c.name (formers.map LiveColumn.name))
  | (c, .incomparable live) => some (.typeUnknown d.key c.name c.datatype live)
  | (c, .drifted declared live) => some (.typeDrift d.key c.name declared live)
  | _ => none

/-- What a verdict cannot do. -/
def columnBlocker? (d : Dataset) : Column × ColumnVerdict → Option UnresolvedColumn
  | (c, .unresolved) => some ⟨d.key, c.name, c.datatype⟩
  | _ => none

/-! ### Tables -/

/-- What is to be done to a table, in order, and what is to be reported. -/
structure DriftPlan where
  dataset : DatasetKey
  steps : List DriftStep
  warnings : List DriftWarning
  blockers : List UnresolvedColumn
  requiresBackfill : Bool
  tableExists : Bool
deriving DecidableEq, Repr

namespace DriftPlan

/-- Whether nothing may be done. -/
def isBlocked (p : DriftPlan) : Bool := ! p.blockers.isEmpty

/-- The statements of a plan; none if it is blocked. -/
def sql (dialect : Dialect) (p : DriftPlan) : Except SqlError (List String) :=
  if p.isBlocked then .ok [] else p.steps.mapM fun s => s.definition.sql dialect

end DriftPlan

/-- The former names, as they are spelled and each once, under which there is a table. -/
def formerTables (d : Dataset) (live : LiveSchema) : List String :=
  (d.formerNames.filter (live.hasTable d.schema)).eraseDups

/-- What a missing schema asks for, or what is reported of it. -/
def schemaFinding (d : Dataset) (live : LiveSchema) (dialect : Dialect) (policy : DriftPolicy) :
    List DriftStep × List DriftWarning :=
  if policy.ensureSchema && ! live.hasSchema d.schema then
    if (Definition.createSchemaTokens? dialect d.schema).isSome then ([.ensureSchema d.schema], [])
    else ([], [.schemaNotCreatable d.schema dialect])
  else ([], [])

/-- Adds to a plan what the columns of the table that goes by `physical` ask for. -/
def planColumns (d : Dataset) (live : LiveSchema) (dialect : Dialect) (policy : DriftPolicy)
    (physical : String) (plan : DriftPlan) : DriftPlan :=
  let columns := live.columns d.schema physical
  let verdicts := columnVerdicts dialect policy d columns [] d.orderedColumns
  let renames := verdicts.filterMap (renameStep? d)
  { plan with
    steps := plan.steps ++ renames ++ verdicts.filterMap (addStep? d) ++
      verdicts.filterMap (retypeStep? d)
    warnings := plan.warnings ++ (if columns.isEmpty then [.noColumnsReturned d.key] else []) ++
      verdicts.filterMap (columnWarning? d)
    blockers := verdicts.filterMap (columnBlocker? d)
    requiresBackfill := plan.requiresBackfill || ! renames.isEmpty
    tableExists := true }

/-- What is to be done so that the table of a dataset fits its declaration. -/
def planDrift (d : Dataset) (live : LiveSchema) (dialect : Dialect) (policy : DriftPolicy) :
    DriftPlan :=
  let (steps, warnings) := schemaFinding d live dialect policy
  let plan : DriftPlan :=
    { dataset := d.key, steps, warnings, blockers := [], requiresBackfill := false,
      tableExists := false }
  if live.hasTable d.schema d.name then planColumns d live dialect policy d.name plan
  else match formerTables d live with
    | [] => { plan with warnings := plan.warnings ++ [.missingTable d.key] }
    | [former] => planColumns d live dialect policy former
        { plan with
          steps := plan.steps ++ [.renameTable d.schema former d.name]
          requiresBackfill := true }
    | formers => { plan with warnings := plan.warnings ++ [.ambiguousTableRename d.key formers] }

end Warehouse
