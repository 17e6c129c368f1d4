/-
Module: Warehouse.Proofs.Run.FormerTables
Purpose: What a plan makes of the tables that a dataset used to have. A table is found whatever the
  case of its name, but former names are told apart as they are spelled, so that a table of which
  two spellings are declared counts twice. What the plan does is first said by the spellings that
  are found, and then compared with the tables.
Trusted boundary: none
Main exports: Dataset.HadTable, DriftPlan.GoesBy, DriftPlan.SameTableOutcome, Dataset.RepeatsFormer,
  renames_iff, reportsAmbiguity_iff, reportsMissing_iff, goesBy_tables_iff
-/
import Warehouse.Proofs.Run.TableRenames

namespace Warehouse

open LiveSchema (tableName)
open Sql (Dialect)

/-- The tables that are there and that a dataset had before, each under the name by which it is
found. -/
def Dataset.HadTable (d : Dataset) (live : LiveSchema) (table : String) : Prop :=
  ∃ former ∈ d.formerNames, live.hasTable d.schema former = true ∧ tableName d.schema former = table

namespace DriftPlan

/-- Whether a plan gives a table another name. -/
def Renames (p : DriftPlan) (table : String) : Prop :=
  table ∈ p.steps.filterMap DriftStep.renamedAway?

/-- Whether a plan reports that there are several tables which may be the dataset's. -/
def ReportsAmbiguity (p : DriftPlan) : Prop :=
  ∃ key formers, .ambiguousTableRename key formers ∈ p.warnings

/-- Whether a plan reports that there is no table. -/
def ReportsMissing (p : DriftPlan) : Prop := ∃ key, .missingTable key ∈ p.warnings

/-- Whether a plan goes by the tables that there are to choose from: it renames one just if that is
the only one, reports several, and reports that there is none. -/
structure GoesBy (p : DriftPlan) (had : String → Prop) : Prop where
  renames : ∀ table, p.Renames table ↔ had table ∧ ∀ other, had other → other = table
  ambiguity : p.ReportsAmbiguity ↔ ∃ table other, had table ∧ had other ∧ table ≠ other
  missing : p.ReportsMissing ↔ ¬ ∃ table, had table

/-- Whether two plans rename the same table, and report the same of finding it. -/
structure SameTableOutcome (p q : DriftPlan) : Prop where
  renames : ∀ table, p.Renames table ↔ q.Renames table
  ambiguity : p.ReportsAmbiguity ↔ q.ReportsAmbiguity
  missing : p.ReportsMissing ↔ q.ReportsMissing

end DriftPlan

/-- A dataset with one of its former names declared once more, somewhere and in some spelling. -/
structure Dataset.RepeatsFormer (d : Dataset) (former again : String) (d' : Dataset) : Prop where
  declared : former ∈ d.formerNames
  same : tableName d.schema again = tableName d.schema former
  repeated : ∃ front back, d.formerNames = front ++ back ∧
    d' = { d with formerNames := front ++ again :: back }

/-- Whether a warning is about finding the table. -/
def DriftWarning.isOfTable : DriftWarning → Bool
  | .missingTable _ | .ambiguousTableRename _ _ => true
  | _ => false

/-- What is to be reported of former names, by how many spellings are found. -/
def formerFinding? (d : Dataset) (live : LiveSchema) : Option DriftWarning :=
  match formerTables d live with
  | [] => some (.missingTable d.key)
  | [_] => none
  | formers => some (.ambiguousTableRename d.key formers)

section

variable {dialect : Dialect} {policy : DriftPolicy} {d : Dataset} {live : LiveSchema}

/-! ### By spellings -/

/-- Without a table of its own name a dataset is found under its only former table. -/
theorem physicalTable?_eq_some_iff (absent : live.hasTable d.schema d.name = false)
    {physical : String} :
    physicalTable? d live = some physical ↔ formerTables d live = [physical] := by
  rw [physicalTable?, if_neg (by simp [absent])]
  split
  · next former only => rw [only, Option.some.injEq, List.singleton_inj]
  · next others => exact iff_of_false (fun found => by cases found) (others physical)

/-- The table that is renamed is the one that is found, if it is found in one spelling. -/
theorem renames_iff (absent : live.hasTable d.schema d.name = false) {table : String} :
    (planDrift d live dialect policy).Renames table ↔
      ∃ former, formerTables d live = [former] ∧ tableName d.schema former = table := by
  rw [DriftPlan.Renames, renamedAway_planDrift]
  constructor
  · intro away
    obtain ⟨former, kept, named⟩ := List.mem_map.mp away
    obtain ⟨found, _⟩ := List.mem_filter.mp kept
    exact ⟨former, (physicalTable?_eq_some_iff absent).mp (Option.mem_toList.mp found), named⟩
  · rintro ⟨former, only, rfl⟩
    have found := (physicalTable?_eq_some_iff absent).mpr only
    have other : former ≠ d.name := by
      rintro rfl
      rw [hasTable_physical found] at absent
      cases absent
    exact List.mem_map_of_mem
      (List.mem_filter.mpr ⟨Option.mem_toList.mpr found, decide_eq_true other⟩)

/-- Of finding the table no more is reported than what its former names give rise to. -/
theorem filter_warnings (absent : live.hasTable d.schema d.name = false) :
    (planDrift d live dialect policy).warnings.filter DriftWarning.isOfTable =
      (formerFinding? d live).toList := by
  have ofSchema : (schemaFinding d live dialect policy).2.filter DriftWarning.isOfTable = [] := by
    rw [List.filter_eq_nil_iff]
    intro w reported
    rw [schemaNotCreatable_of_mem reported]
    exact Bool.false_ne_true
  match formers : formerTables d live with
  | [] =>
    simp only [planDrift, absent, formers, formerFinding?, Bool.false_eq_true, if_false,
      List.filter_append, ofSchema]
    rfl
  | [former] =>
    have ofColumns (vs : List (Column × ColumnVerdict)) :
        (vs.filterMap (columnWarning? d)).filter DriftWarning.isOfTable = [] := by
      rw [List.filter_eq_nil_iff]
      intro w reported
      obtain ⟨⟨c, v⟩, _, said⟩ := List.mem_filterMap.mp reported
      cases v <;> cases said <;> exact Bool.false_ne_true
    rw [warnings_of_found ((physicalTable?_eq_some_iff absent).mpr formers), List.filter_append,
      List.filter_append, ofSchema, ofColumns, formerFinding?, formers]
    split <;> rfl
  | former :: other :: more =>
    simp only [planDrift, absent, formers, formerFinding?, Bool.false_eq_true, if_false,
      List.filter_append, ofSchema]
    rfl

private theorem mem_warnings_iff (absent : live.hasTable d.schema d.name = false) {w : DriftWarning}
    (ofTable : w.isOfTable = true) :
    w ∈ (planDrift d live dialect policy).warnings ↔ formerFinding? d live = some w := by
  rw [← Option.mem_toList, ← filter_warnings absent, List.mem_filter, and_iff_left ofTable]

/-- A table is reported missing if no former name has a table. -/
theorem reportsMissing_iff (absent : live.hasTable d.schema d.name = false) :
    (planDrift d live dialect policy).ReportsMissing ↔ formerTables d live = [] := by
  rw [DriftPlan.ReportsMissing, exists_congr fun key => mem_warnings_iff absent rfl, formerFinding?]
  match formerTables d live with
  | [] => simp
  | [former] => simp
  | former :: other :: more => simp

/-- Former names are reported ambiguous if several have a table. -/
theorem reportsAmbiguity_iff (absent : live.hasTable d.schema d.name = false) :
    (planDrift d live dialect policy).ReportsAmbiguity ↔
      formerTables d live ≠ [] ∧ ∀ former, formerTables d live ≠ [former] := by
  rw [DriftPlan.ReportsAmbiguity, exists_congr fun key => exists_congr fun formers =>
    mem_warnings_iff absent rfl, formerFinding?]
  match formerTables d live with
  | [] => simp
  | [former] => simp
  | former :: other :: more => simp

/-! ### By tables

A database that ignores case may find the same table under two spellings. So what counts is not how
many former names have a table, but how many tables there are under former names. -/

/-- There is one former table by spelling just if all former names with a table are spelled
alike. -/
theorem formerTables_eq_singleton_iff {former : String} :
    formerTables d live = [former] ↔ ∀ f, f ∈ formerTables d live ↔ f = former := by
  constructor
  · intro only f
    rw [only, List.mem_singleton]
  · intro only
    refine eraseDups_eq_singleton (List.mem_eraseDups.mp ((only former).mpr rfl)) fun f there => ?_
    exact (only f).mp (List.mem_eraseDups.mpr there)

/-- The tables that a dataset had are those found under its former names. -/
theorem hadTable_iff {table : String} :
    d.HadTable live table ↔ ∃ former ∈ formerTables d live, tableName d.schema former = table := by
  simp only [Dataset.HadTable, mem_formerTables, and_assoc]

private theorem hadTable_iff_of_singleton {former table : String}
    (only : formerTables d live = [former]) :
    d.HadTable live table ↔ tableName d.schema former = table := by
  simp only [hadTable_iff, only, List.mem_singleton, exists_eq_left]

/-- No former name has a table just if the dataset had none of the tables. -/
theorem formerTables_eq_nil_iff : formerTables d live = [] ↔ ¬ ∃ table, d.HadTable live table := by
  simp only [hadTable_iff, List.eq_nil_iff_forall_not_mem]
  grind

/-- If the only table that there is, if there is only one, is found in one spelling, the plan goes
by the tables. -/
theorem goesBy_of_one_spelling (absent : live.hasTable d.schema d.name = false)
    (one : (∃! table, d.HadTable live table) → ∃ former, formerTables d live = [former]) :
    (planDrift d live dialect policy).GoesBy (d.HadTable live) := by
  constructor
  · intro table
    rw [renames_iff absent]
    constructor
    · rintro ⟨former, only, named⟩
      refine ⟨(hadTable_iff_of_singleton only).mpr named, fun other found => ?_⟩
      exact ((hadTable_iff_of_singleton only).mp found).symm.trans named
    · rintro ⟨found, unique⟩
      obtain ⟨former, only⟩ := one ⟨table, found, unique⟩
      exact ⟨former, only, (hadTable_iff_of_singleton only).mp found⟩
  · rw [reportsAmbiguity_iff absent, ne_eq, formerTables_eq_nil_iff, not_not]
    constructor
    · rintro ⟨⟨table, found⟩, several⟩
      by_contra alone
      obtain ⟨former, only⟩ := one ⟨table, found, fun other found' =>
        by_contra fun differ => alone ⟨other, table, found', found, differ⟩⟩
      exact several former only
    · rintro ⟨table, other, found, found', differ⟩
      refine ⟨⟨table, found⟩, fun former only => differ ?_⟩
      exact ((hadTable_iff_of_singleton only).mp found).symm.trans
        ((hadTable_iff_of_singleton only).mp found')
  · rw [reportsMissing_iff absent, formerTables_eq_nil_iff]

/-! ### Former names that are repeated -/

variable {d' : Dataset} {former again : String}

/-- A repeated name is found if and only if the name is, and nothing else is found besides. -/
theorem Dataset.RepeatsFormer.mem_formerTables_iff (repeats : d.RepeatsFormer former again d')
    {f : String} :
    f ∈ formerTables d' live ↔ f ∈ formerTables d live ∨
    (f = again ∧ former ∈ formerTables d live) := by
  obtain ⟨declared, same, front, back, names, rfl⟩ := repeats
  have found : live.hasTable d.schema again = live.hasTable d.schema former := hasTable_congr same
  simp only [mem_formerTables, names, List.mem_append, List.mem_cons] at declared ⊢
  grind

/-- Another spelling of the only table found makes two of it; otherwise nothing changes. -/
theorem sameTableOutcome_iff (absent : live.hasTable d.schema d.name = false)
    (repeats : d.RepeatsFormer former again d') :
    (planDrift d live dialect policy).SameTableOutcome (planDrift d' live dialect policy) ↔
      (formerTables d live = [former] → again = former) := by
  obtain ⟨schema, absent'⟩ : d'.schema = d.schema ∧ live.hasTable d'.schema d'.name = false := by
    obtain ⟨_, _, _, _, _, rfl⟩ := repeats
    exact ⟨rfl, absent⟩
  have members (f : String) : f ∈ formerTables d' live ↔
      f ∈ formerTables d live ∨ (f = again ∧ former ∈ formerTables d live) :=
    repeats.mem_formerTables_iff
  constructor
  · intro same only
    have renamed := (same.renames _).mp ((renames_iff absent).mpr ⟨former, only, rfl⟩)
    obtain ⟨other, only', _⟩ := (renames_iff absent').mp renamed
    rw [formerTables_eq_singleton_iff] at only only'
    have there : former ∈ formerTables d live := (only former).mpr rfl
    have repeated : again = other := (only' again).mp ((members again).mpr (.inr ⟨rfl, there⟩))
    have original : former = other := (only' former).mp ((members former).mpr (.inl there))
    exact repeated.trans original.symm
  · intro spelled
    -- What is found is found besides the repetition too, so that only one becoming two would tell
    -- the plans apart.
    have none : formerTables d' live = [] ↔ formerTables d live = [] := by
      simp only [List.eq_nil_iff_forall_not_mem]
      grind
    have single (f : String) : formerTables d' live = [f] ↔ formerTables d live = [f] := by
      rw [formerTables_eq_singleton_iff] at spelled ⊢
      rw [formerTables_eq_singleton_iff]
      grind
    constructor
    · intro table
      rw [renames_iff absent, renames_iff absent', schema]
      simp only [single]
    · rw [reportsAmbiguity_iff absent, reportsAmbiguity_iff absent']
      simp only [ne_eq, none, single]
    · rw [reportsMissing_iff absent, reportsMissing_iff absent', none]

/-- A plan goes by the tables that the dataset had if and only if the only one of them, if there is
only one, is found in one spelling. A former name that is repeated changes nothing, unless the
repetition is another spelling of the only table found. -/
theorem goesBy_tables_iff (absent : live.hasTable d.schema d.name = false) (dialect : Dialect)
    (policy : DriftPolicy) : ((planDrift d live dialect policy).GoesBy (d.HadTable live) ↔
      ((∃! table, d.HadTable live table) → ∃ former, formerTables d live = [former])) ∧
    ∀ d' former again, d.RepeatsFormer former again d' →
      ((planDrift d live dialect policy).SameTableOutcome (planDrift d' live dialect policy) ↔
        (formerTables d live = [former] → again = former)) := by
  refine ⟨⟨?_, goesBy_of_one_spelling absent⟩, fun d' former again => sameTableOutcome_iff absent⟩
  rintro goes ⟨table, found, unique⟩
  obtain ⟨former, only, _⟩ := (renames_iff absent).mp ((goes.renames table).mpr ⟨found, unique⟩)
  exact ⟨former, only⟩

end

/-- Clients, whose table had other names before. -/
def clientsFormerly (names : List String) : Dataset := { clientsFrom "" with formerNames := names }

/-- The table of the customers is that of the clients, however often it is declared in this
spelling. -/
theorem goesBy_tables_of_customers :
    (LiveSchema.only "core" "customers").hasTable "core" "clients" = false ∧
    (planDrift (clientsFormerly ["customers", "patrons"])
      (.only "core" "customers") .postgres {}).GoesBy
      ((clientsFormerly ["customers", "patrons"]).HadTable (.only "core" "customers")) ∧
    (planDrift (clientsFormerly ["customers", "patrons"]) (.only "core" "customers") .postgres
      {}).SameTableOutcome
      (planDrift (clientsFormerly ["customers", "customers", "patrons"])
        (.only "core" "customers") .postgres {}) := by
  have absent : (LiveSchema.only "core" "customers").hasTable "core" "clients" = false := by
    decide +kernel
  have found : formerTables (clientsFormerly ["customers", "patrons"]) (.only "core" "customers") =
      ["customers"] := by
    decide +kernel
  have goes := goesBy_tables_iff (d := clientsFormerly ["customers", "patrons"]) absent .postgres {}
  have repeats : (clientsFormerly ["customers", "patrons"]).RepeatsFormer "customers" "customers"
      (clientsFormerly ["customers", "customers", "patrons"]) :=
    ⟨List.mem_cons_self, rfl, ["customers"], ["patrons"], rfl, rfl⟩
  exact ⟨absent, goes.1.mpr fun _ => ⟨"customers", found⟩, (goes.2 _ _ _ repeats).mpr fun _ => rfl⟩

/-- One table that is declared in two spellings is taken for two. -/
theorem not_always_by_tables :
    ¬ ∀ (d : Dataset) (live : LiveSchema) (dialect : Dialect) (policy : DriftPolicy),
      live.hasTable d.schema d.name = false →
      (planDrift d live dialect policy).GoesBy (d.HadTable live) := by
  intro always
  have goes :=
    always (clientsFormerly ["customers", "Customers"]) (.only "core" "customers") .postgres {}
      (by decide +kernel)
  have one : ∀ former ∈ (clientsFormerly ["customers", "Customers"]).formerNames,
      tableName "core" former = "core.customers" := by decide +kernel
  obtain ⟨table, other, ⟨former, declared, _, rfl⟩, ⟨former', declared', _, rfl⟩, differ⟩ :=
    goes.ambiguity.mp ⟨⟨"core", "clients"⟩, ["customers", "Customers"], by decide +kernel⟩
  exact differ ((one former declared).trans (one former' declared').symm)

end Warehouse
