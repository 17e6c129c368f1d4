/-
Module: Warehouse.Proofs.Drift.Created
Purpose: Which tables drift as soon as they have been created. A new table has the names of types
  that its dialect writes, and the next plan reads these names. It finds nothing to do and nothing
  drifted exactly if no column has a type whose name is read as a type that is not as good.
Trusted boundary: none
Main exports: Sql.Dialect.readsBack, Sql.Dialect.keepsType, isDrift_columnType, CreatedAs,
  DriftPlan.IsSettled, settled_iff_keepsTypes
-/
import Warehouse.Load.Compose
import Warehouse.Proofs.Drift.Applied
import Warehouse.Proofs.Results
import Warehouse.Proofs.Sql.TypeSpelling

namespace Warehouse

open Sql (ColumnSpec DataType Definition Dialect)

/-! ### Names of types, read again

A database reports its columns under the names of its own types. A name that was written for one
type may be read as another, and some names are read as no type at all. -/

/-- Whether the types differ in a way that matters. -/
def TypeComparison.isDrift : TypeComparison → Bool
  | .drift .. => true
  | _ => false

namespace Sql.Dialect

/-- Whether the name that a dialect has for a type, if it is read as a type at all, is read as one
that is as good. -/
def readsBack (dialect : Dialect) (t : DataType) : Bool :=
  match DataType.parse? (dialect.columnType t) with
  | some l => t = l || isBenign dialect t l
  | none => true

/-- Whether a dialect keeps a type when its name is read again. MySQL and Databricks call single
precision a float, which is read as double precision; Oracle has numbers for truth values and whole
numbers, and texts for times and UUIDs. -/
def keepsType : Dialect → DataType → Bool
  | mysql, .float32 | databricks, .float32 => false
  | oracle, .bool | oracle, .int8 | oracle, .int16 | oracle, .int32 | oracle, .int64 => false
  | oracle, .time | oracle, .uuid => false
  | _, _ => true

end Sql.Dialect

/-- The types that have no parameters. -/
def Sql.DataType.unsized : List DataType :=
  [.bool, .int8, .int16, .int32, .int64, .float32, .float64, .string, .date, .time, .timestamp,
    .timestampTz,
   .binary, .json, .uuid]

section

variable {dialect : Dialect} {t l : DataType}

/-- A type that the dialect calls the same is as good. -/
theorem readsBack_of_columnType_eq (read : DataType.parse? (dialect.columnType t) = some l)
    (same : dialect.columnType l = dialect.columnType t) : dialect.readsBack t = true := by
  have benign : isBenign dialect t l = true := by
    unfold isBenign
    rw [decide_eq_true same.symm, Bool.true_or]
  simp only [Dialect.readsBack, read, benign, Bool.or_true]

/-- For the types without a size it can be looked up, dialect by dialect, which are read back as
they were. -/
theorem readsBack_unsized :
    ∀ dialect ∈ Dialect.all, ∀ t ∈ DataType.unsized, dialect.readsBack t = dialect.keepsType t := by
  decide +kernel

/-- The types whose names are read back are those that a dialect keeps. -/
theorem readsBack_eq_keepsType (dialect : Dialect) (t : DataType) :
    dialect.readsBack t = dialect.keepsType t := by
  have everywhere : dialect ∈ Dialect.all := by cases dialect <;> decide
  cases t with
  | decimal p s =>
    rw [readsBack_of_columnType_eq (DataType.parse?_columnType_decimal dialect p s) rfl]
    cases dialect <;> rfl
  | char n =>
    obtain ⟨l, read, same⟩ := DataType.exists_parse?_columnType_char dialect n
    rw [readsBack_of_columnType_eq read same]
    cases dialect <;> rfl
  | varchar n =>
    obtain ⟨l, read, same⟩ := DataType.exists_parse?_columnType_varchar dialect n
    rw [readsBack_of_columnType_eq read same]
    cases dialect <;> rfl
  | _ => exact readsBack_unsized dialect everywhere _ (by decide)

/-- A column has drifted once it is created if and only if its dialect does not keep its type. -/
theorem isDrift_columnType {declared : String} (known : DataType.parse? declared = some t) :
    (compareTypes dialect declared (dialect.columnType t)).isDrift = ! dialect.keepsType t := by
  rw [← readsBack_eq_keepsType, Dialect.readsBack, compareTypes, known]
  cases DataType.parse? (dialect.columnType t) with
  | none => rfl
  | some l =>
    by_cases same : t = l
    · simp [same, TypeComparison.isDrift]
    · cases benign : isBenign dialect t l <;> simp [same, benign, TypeComparison.isDrift]

end

/-! ### Verdicts on types -/

/-- Whether a verdict rests on a type that has drifted. -/
def ColumnVerdict.seesDrift : ColumnVerdict → Bool
  | .retype _ | .drifted .. => true
  | _ => false

/-- Whether something is reported of a type that has drifted. -/
def DriftWarning.isTypeDrift : DriftWarning → Bool
  | .typeDrift .. => true
  | _ => false

/-- Whether a plan changes nothing and reports no type that has drifted. -/
structure DriftPlan.IsSettled (p : DriftPlan) : Prop where
  steps : p.steps = []
  warnings : ∀ w ∈ p.warnings, w.isTypeDrift = false

section

variable {dialect : Dialect} {policy : DriftPolicy} {d : Dataset} {live : LiveSchema}

/-- Drift is seen in a column that is there just if its type is not the declared one. -/
theorem seesDrift_existingVerdict (c : Column) (e : LiveColumn) :
    (existingVerdict dialect policy c e).seesDrift =
      (compareTypes dialect c.datatype e.datatype).isDrift := by
  rw [existingVerdict]
  split
  · next same => rw [same]; rfl
  · next benign => rw [benign]; rfl
  · next unknown => rw [unknown]; rfl
  · next drift =>
    rw [drift]
    split <;> rfl

/-- The verdict on a column that is there rests on its types. -/
theorem exists_existingVerdict {columns : List LiveColumn} {c : Column} {v : ColumnVerdict}
    (member : (c, v) ∈ tableVerdicts dialect policy d columns)
    (present : hasColumn columns c.name = true) :
    ∃ e, liveColumn? columns (Text.lower c.name) = some e ∧
      v = existingVerdict dialect policy c e := by
  cases judged_of_mem member with
  | existing found => exact ⟨_, found, rfl⟩
  | missing claimed absent =>
    rw [hasColumn, absent] at present
    cases present

/-- If every column is there, nothing is asked for and no drift reported exactly if no verdict sees
any. -/
theorem quiet_iff (dialect : Dialect) (policy : DriftPolicy) {columns : List LiveColumn}
    (present : ∀ c ∈ d.columns, hasColumn columns c.name = true) :
    (verdictSteps d (tableVerdicts dialect policy d columns) = [] ∧
      ∀ w ∈ (tableVerdicts dialect policy d columns).filterMap (columnWarning? d),
      w.isTypeDrift = false) ↔
    ∀ c v, (c, v) ∈ tableVerdicts dialect policy d columns → v.seesDrift = false := by
  constructor
  · rintro ⟨steps, warnings⟩ c v member
    rw [verdictSteps, List.append_eq_nil_iff] at steps
    cases v with
    | retype type =>
      have asked := List.filterMap_eq_nil_iff.mp steps.2 _ member
      cases asked
    | drifted declared live =>
      have reported : DriftWarning.typeDrift d.key c.name declared live ∈
          (tableVerdicts dialect policy d columns).filterMap (columnWarning? d) :=
        List.mem_filterMap.mpr ⟨_, member, rfl⟩
      exact warnings _ reported
    | _ => rfl
  · intro unseen
    have kept (v : Column × ColumnVerdict) (member : v ∈ tableVerdicts dialect policy d columns) :
        v.2 = .keep ∨ ∃ live, v.2 = .incomparable live := by
      obtain ⟨e, _, verdict⟩ :=
        exists_existingVerdict member (present v.1 (exists_verdict_iff.mp ⟨v.2, member⟩))
      have still := unseen v.1 v.2 member
      rcases existingVerdict_cases dialect policy v.1 e with same | same | ⟨_, _, same | same⟩
      · exact .inl (verdict.trans same)
      · exact .inr ⟨_, verdict.trans same⟩
      · rw [verdict, same] at still
        cases still
      · rw [verdict, same] at still
        cases still
    constructor
    · rw [verdictSteps, List.append_eq_nil_iff, List.append_eq_nil_iff, List.filterMap_eq_nil_iff,
        List.filterMap_eq_nil_iff, List.filterMap_eq_nil_iff]
      refine ⟨⟨?_, ?_⟩, ?_⟩
      all_goals
        rintro ⟨c, v⟩ member
        rcases kept _ member with same | ⟨live, same⟩ <;> cases same <;> rfl
    · intro w reported
      obtain ⟨⟨c, v⟩, member, warned⟩ := List.mem_filterMap.mp reported
      rcases kept _ member with same | ⟨live, same⟩ <;> cases same <;> cases warned
      rfl

/-! ### A table as it was created -/

/-- Whether a table is as it was created for a dataset: it has the columns that were specified, in
any order and whatever the case of their names, each with the name that the dialect has for its
type. -/
def CreatedAs (dialect : Dialect) (specs : List ColumnSpec) (columns : List LiveColumn) : Prop :=
  (columns.map fun c => (Text.lower c.name, c.datatype)).Perm
    (specs.map fun s => (Text.lower s.name, dialect.columnType s.type))

instance (dialect : Dialect) (specs : List ColumnSpec) (columns : List LiveColumn) :
    Decidable (CreatedAs dialect specs columns) := inferInstanceAs (Decidable (List.Perm _ _))

/-- What the dialect makes of the specification is as it was created. -/
theorem createdAs_addedColumn (dialect : Dialect) (specs : List ColumnSpec) :
    CreatedAs dialect specs (specs.map (addedColumn dialect)) := by
  rw [CreatedAs, List.map_map]
  rfl

/-- Each specified column is found under its name, with the name of its type. -/
theorem CreatedAs.exists_liveColumn {specs : List ColumnSpec} {columns : List LiveColumn}
    (created : CreatedAs dialect specs columns)
    (distinct : (specs.map fun s => Text.lower s.name).Nodup) {s : ColumnSpec}
    (member : s ∈ specs) :
    ∃ e, liveColumn? columns (Text.lower s.name) = some e ∧
      e.datatype = dialect.columnType s.type := by
  have written : (Text.lower s.name, dialect.columnType s.type) ∈
      columns.map fun c => (Text.lower c.name, c.datatype) :=
    created.mem_iff.mpr (List.mem_map.mpr ⟨s, member, rfl⟩)
  have there : hasColumn columns s.name = true := by
    obtain ⟨c, among, same⟩ := List.mem_map.mp written
    exact hasColumn_eq_true_iff.mpr ⟨c, among, congrArg Prod.fst same⟩
  obtain ⟨e, found⟩ := Option.isSome_iff_exists.mp there
  have among : e ∈ columns := by
    unfold liveColumn? at found
    exact List.mem_reverse.mp (List.mem_of_find?_eq_some found)
  obtain ⟨s', member', same⟩ :=
    List.mem_map.mp (created.mem_iff.mp (List.mem_map.mpr ⟨e, among, rfl⟩))
  obtain ⟨name, type⟩ := Prod.mk.inj same
  have unique : s' = s :=
    List.inj_on_of_nodup_map distinct member' member (name.trans (liveColumn?_lower found))
  exact ⟨e, found, by rw [← type, unique]⟩

/-- Each column is specified with its name and the type that its spelling names. -/
theorem forall₂_columnSpecs {specs : List ColumnSpec} (resolved : columnSpecs d = .ok specs) :
    List.Forall₂ (fun c s => c.name = s.name ∧ c.type? = some s.type) d.orderedColumns specs := by
  rw [columnSpecs, mapM_eq_ok_iff] at resolved
  apply resolved.imp
  intro c s built
  cases known : c.type? with
  | some type =>
    simp only [known, Except.ok.injEq] at built
    subst built
    exact ⟨rfl, rfl⟩
  | none =>
    simp only [known] at built
    cases built

private theorem lower_columnSpecs {specs : List ColumnSpec} (resolved : columnSpecs d = .ok specs) :
    specs.map (fun s => Text.lower s.name) = d.orderedColumns.map fun c => Text.lower c.name := by
  have related := forall₂_columnSpecs resolved
  clear resolved
  generalize d.orderedColumns = columns at related
  induction related with
  | nil => rfl
  | cons here _ ih => rw [List.map_cons, List.map_cons, ih, here.1]

/-- The schema is left alone if it is there, if it need not be, or if the dialect cannot create
it. -/
theorem schemaFinding_eq_nil_iff :
    (schemaFinding d live dialect policy).1 = [] ↔
      (policy.ensureSchema = true → live.hasSchema d.schema = false → dialect = .oracle) := by
  rw [schemaFinding]
  cases policy.ensureSchema <;> cases live.hasSchema d.schema <;> cases dialect <;>
    simp [Definition.createSchemaTokens?]

section

variable {specs : List ColumnSpec} (distinct : d.DistinctLowerNames)
    (resolved : columnSpecs d = .ok specs)
  (created : CreatedAs dialect specs (live.columns d.schema d.name))

include distinct resolved created

/-- Every column is there under its name, with what the dialect writes for its type. -/
theorem exists_liveColumn_of_created {c : Column} {s : ColumnSpec} (specified : s ∈ specs)
    (name : c.name = s.name) :
    ∃ e, liveColumn? (live.columns d.schema d.name) (Text.lower c.name) = some e ∧
      e.datatype = dialect.columnType s.type := by
  have apart : (specs.map fun s => Text.lower s.name).Nodup := by
    rw [lower_columnSpecs resolved]
    exact ((List.mergeSort_perm d.columns _).map _).nodup_iff.mpr distinct
  rw [name]
  exact created.exists_liveColumn apart specified

/-- A table that was created for a dataset has all its columns. -/
private theorem present_of_created :
    ∀ c ∈ d.columns, hasColumn (live.columns d.schema d.name) c.name = true := by
  intro c declared
  have related := forall₂_columnSpecs resolved
  obtain ⟨s, specified, name, _⟩ :=
    exists_of_mem_right related.flip (mem_orderedColumns.mpr declared)
  obtain ⟨e, found, _⟩ := exists_liveColumn_of_created distinct resolved created specified name
  exact Option.isSome_iff_exists.mpr ⟨e, found⟩

/-- A verdict sees that a type has drifted if and only if the dialect does not keep the type. -/
theorem seesDrift_of_created {c : Column} {v : ColumnVerdict} {s : ColumnSpec}
    (specified : s ∈ specs) (name : c.name = s.name) (known : c.type? = some s.type)
    (member : (c, v) ∈ tableVerdicts dialect policy d (live.columns d.schema d.name)) :
    v.seesDrift = ! dialect.keepsType s.type := by
  have declared : c ∈ d.columns := exists_verdict_iff.mp ⟨v, member⟩
  obtain ⟨e, found, verdict⟩ :=
    exists_existingVerdict member (present_of_created distinct resolved created c declared)
  obtain ⟨e', found', written⟩ :=
    exists_liveColumn_of_created distinct resolved created specified name
  have same : e = e' := Option.some.inj (found.symm.trans found')
  rw [verdict, seesDrift_existingVerdict, same, written]
  exact isDrift_columnType known

/-- No verdict sees that a type has drifted exactly if the dialect keeps all types. -/
theorem unseen_iff_keepsTypes :
    (∀ c v, (c, v) ∈ tableVerdicts dialect policy d (live.columns d.schema d.name) →
      v.seesDrift = false) ↔ ∀ s ∈ specs, dialect.keepsType s.type = true := by
  have related := forall₂_columnSpecs resolved
  constructor
  · intro unseen s specified
    obtain ⟨c, ordered, name, known⟩ := exists_of_mem_right related specified
    obtain ⟨v, member⟩ := exists_verdict_iff.mpr (mem_orderedColumns.mp ordered)
    have sees := seesDrift_of_created distinct resolved created specified name known member
    rw [unseen c v member] at sees
    simpa using sees.symm
  · intro keeps c v member
    have ordered : c ∈ d.orderedColumns :=
      mem_orderedColumns.mpr (exists_verdict_iff.mp ⟨v, member⟩)
    obtain ⟨s, specified, name, known⟩ := exists_of_mem_right related.flip ordered
    rw [seesDrift_of_created distinct resolved created specified name known member,
      keeps s specified]
    rfl

end

end

/-- A table that has just been created is settled if and only if its dialect keeps the types of all
its columns: the next plan does nothing then, unless the schema itself is missing, and reports no
type that has drifted. -/
theorem settled_iff_keepsTypes {d : Dataset} (distinct : d.DistinctLowerNames)
    {specs : List ColumnSpec} (resolved : columnSpecs d = .ok specs) {live : LiveSchema}
    {dialect : Dialect} (there : live.hasTable d.schema d.name = true)
    (created : CreatedAs dialect specs (live.columns d.schema d.name)) (policy : DriftPolicy) :
    (planDrift d live dialect policy).IsSettled ↔
      (policy.ensureSchema = true → live.hasSchema d.schema = false → dialect = .oracle) ∧
        ∀ s ∈ specs, dialect.keepsType s.type = true := by
  have found : physicalTable? d live = some d.name := by rw [physicalTable?, if_pos there]
  have same : tableSteps d d.name = [] := if_pos rfl
  have quiet := quiet_iff dialect policy (present_of_created distinct resolved created)
  rw [unseen_iff_keepsTypes distinct resolved created] at quiet
  rw [← quiet, ← schemaFinding_eq_nil_iff]
  constructor
  · rintro ⟨steps, warnings⟩
    rw [steps_of_found found, same, List.append_nil, List.append_eq_nil_iff] at steps
    rw [warnings_of_found found] at warnings
    exact ⟨steps.1, steps.2, fun w reported => warnings w (List.mem_append_right _ reported)⟩
  · rintro ⟨schema, steps, warnings⟩
    constructor
    · rw [steps_of_found found, same, List.append_nil, schema, steps]
      rfl
    · intro w reported
      rcases of_mem_warnings found reported with rfl | rfl | ofColumns
      · rfl
      · rfl
      · exact warnings w (List.mem_filterMap.mpr ofColumns)

/-! ### A table of measurements -/

/-- Levels, by number, in single precision. -/
def readings : Dataset :=
  { customers with
    name := "readings"
    columns := [Column.plain "id" "bigint" 1, Column.plain "level" "real" 2] }

/-- What the columns of the table are specified as. -/
def readingSpecs : List ColumnSpec := [⟨"id", .int64, true⟩, ⟨"level", .float32, true⟩]

/-- The database with the table as it is created. -/
def createdReadings (dialect : Dialect) : LiveSchema :=
  LiveSchema.empty.withTable "core" "readings" (readingSpecs.map (addedColumn dialect))

private theorem orderedColumns_readings : readings.orderedColumns = readings.columns :=
  List.mergeSort_of_pairwise (by decide)

private theorem columnSpecs_readings : columnSpecs readings = .ok readingSpecs := by
  rw [columnSpecs, orderedColumns_readings]
  decide +kernel

/-- The readings are settled where a real number keeps its type. -/
theorem settled_iff_keepsTypes_for_readings :
    readings.DistinctLowerNames ∧ columnSpecs readings = .ok readingSpecs ∧
    (createdReadings .postgres).hasTable "core" "readings" = true ∧
    CreatedAs .postgres readingSpecs ((createdReadings .postgres).columns "core" "readings") ∧
    (planDrift readings (createdReadings .postgres) .postgres ⟨true, true⟩).IsSettled := by
  have distinct : readings.DistinctLowerNames := by decide
  have there : (createdReadings .postgres).hasTable "core" "readings" = true := by decide +kernel
  have created : CreatedAs .postgres readingSpecs
      ((createdReadings .postgres).columns "core" "readings") := by
    have columns : (createdReadings .postgres).columns "core" "readings" =
        readingSpecs.map (addedColumn .postgres) := by decide +kernel
    rw [columns]
    exact createdAs_addedColumn .postgres readingSpecs
  have settled := settled_iff_keepsTypes distinct columnSpecs_readings there created ⟨true, true⟩
  have housed : (createdReadings .postgres).hasSchema "core" = true := by decide +kernel
  refine ⟨distinct, columnSpecs_readings, there, created, settled.mpr ⟨?_, by decide⟩⟩
  intro _ missing
  cases housed.symm.trans missing

/-- Not every table that has just been created is settled: MySQL calls single precision a float,
which is read as double precision, so that the type of the column is changed by every plan. -/
theorem not_always_settled :
    ¬ ∀ (d : Dataset) (specs : List ColumnSpec) (live : LiveSchema) (dialect : Dialect)
      (policy : DriftPolicy),
      d.DistinctLowerNames → d.columns ≠ [] → columnSpecs d = .ok specs →
      live.hasSchema d.schema = true → live.hasTable d.schema d.name = true →
      CreatedAs dialect specs (live.columns d.schema d.name) →
      (planDrift d live dialect policy).IsSettled := by
  intro always
  have steps : (planDrift readings (createdReadings .mysql) .mysql ⟨true, true⟩).steps =
      [.alterColumnType "core" "readings" "level" .float32] := by
    simp only [planDrift, planColumns, orderedColumns_readings]
    decide +kernel
  have created :
      CreatedAs .mysql readingSpecs ((createdReadings .mysql).columns "core" "readings") := by
    decide +kernel
  have settled :=
    always readings readingSpecs (createdReadings .mysql) .mysql ⟨true, true⟩ (by decide)
      (by decide) columnSpecs_readings (by decide +kernel) (by decide +kernel) created
  rw [settled.steps] at steps
  cases steps

end Warehouse
