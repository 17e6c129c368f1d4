/-
Module: Warehouse.Proofs.Drift.Shadow
Purpose: What a plan makes of the columns of a shadow. A shadow takes the names, types and roles of
  the business columns of its base, but not their former names; so a column that is renamed in the
  base is added to the shadow, next to the one that has the history so far. Only the key of a shadow
  can be renamed.
Trusted boundary: none
Main exports: columnVerdicts_of_apart, Dataset.IsShadowOf.tableVerdicts_eq, shadow_renames_iff
-/
import Warehouse.Proofs.Catalog.Document
import Warehouse.Proofs.Drift.AfterRun

namespace Warehouse

open Sql (ColumnSpec DataType Dialect)

/-! ### Verdicts that do not disturb one another

A verdict on a column may claim a former name, which is then not free for later columns. Columns
without former names claim nothing, so beside them each verdict can be told by itself. -/

section

variable {dialect : Dialect} {policy : DriftPolicy} {d : Dataset} {live : List LiveColumn}
    {c : Column}

/-- A column that never had another name is found under none. -/
theorem freeFormers_of_silent (silent : renameCandidates d c = []) (claimed : List String) :
    freeFormers d live claimed c = [] := by
  rw [freeFormers, silent]
  rfl

/-- A column without former names claims none. -/
private theorem claimedAfter_of_silent (silent : renameCandidates d c = [])
    (claimed claimed' : List String) :
    claimedAfter claimed' (missingVerdict c (freeFormers d live claimed c)) = claimed' := by
  rw [freeFormers_of_silent silent, missingVerdict]
  cases c.type? <;> rfl

/-- If at most one column can be found under another name, each verdict stands alone. -/
theorem columnVerdicts_of_apart {claimed : List String} {columns : List Column}
    (apart : columns.Pairwise fun a b => renameCandidates d a = [] ∨ renameCandidates d b = [])
    (unclaimed : claimed = [] ∨ ∀ c ∈ columns, renameCandidates d c = []) :
    columnVerdicts dialect policy d live claimed columns =
      columns.map fun c => (c, verdictAlone dialect policy d live c) := by
  induction columns generalizing claimed with
  | nil => rfl
  | cons c rest ih =>
    obtain ⟨others, apart⟩ := List.pairwise_cons.mp apart
    cases search : liveColumn? live (Text.lower c.name) with
    | some e =>
      have later :=
        ih apart (unclaimed.imp_right fun silent c' member =>
          silent c' (List.mem_cons_of_mem _ member))
      rw [columnVerdicts, search, List.map_cons, verdictAlone, search, ← later]
    | none =>
      have alone : verdictAlone dialect policy d live c =
          missingVerdict c (freeFormers d live claimed c) := by
        rw [verdictAlone, search]
        rcases unclaimed with rfl | silent
        · rfl
        · have none := silent c List.mem_cons_self
          rw [freeFormers_of_silent none, freeFormers_of_silent none]
      rw [columnVerdicts_of_absent claimed rest search, List.map_cons, alone]
      refine congrArg _ (ih apart ?_)
      by_cases silent : renameCandidates d c = []
      · rw [claimedAfter_of_silent silent]
        exact unclaimed.imp_right fun silent c' member => silent c' (List.mem_cons_of_mem _ member)
      · exact .inr fun c' member => (others c' member).resolve_left silent

end

/-! ### The columns of a shadow -/

namespace Dataset.IsShadowOf

variable {dialect : Dialect} {policy : DriftPolicy} {base s : Dataset} {live : List LiveColumn}
    {c : Column}

/-- Only the key of a shadow can be found under another name. -/
theorem renameCandidates_eq_nil (shadow : s.IsShadowOf base) (member : c ∈ s.columns)
    (other : c.role? ≠ some .surrogateKey) : renameCandidates s c = [] := by
  rw [shadow.columns] at member
  rw [renameCandidates, formerNames_of_mem_shadowColumns member, if_neg fun both => other both.1]
  rfl

/-- Of two columns of a shadow at most one has former names: the key. -/
theorem pairwise_renameCandidates (shadow : s.IsShadowOf base) :
    s.orderedColumns.Pairwise fun a b => renameCandidates s a = [] ∨ renameCandidates s b = [] := by
  have columns : s.columns.Pairwise fun a b => renameCandidates s a = [] ∨
      renameCandidates s b = [] := by
    have keys := pairwise_shadowColumns base
    rw [← shadow.columns] at keys
    refine keys.imp_of_mem fun a b apart => ?_
    exact apart.imp (shadow.renameCandidates_eq_nil a) (shadow.renameCandidates_eq_nil b)
  exact ((List.mergeSort_perm s.columns _).pairwise_iff Or.symm).mpr columns

/-- Each verdict on a column of a shadow stands alone. -/
theorem tableVerdicts_eq (shadow : s.IsShadowOf base) : tableVerdicts dialect policy s live =
    s.orderedColumns.map fun c => (c, verdictAlone dialect policy s live c) :=
  columnVerdicts_of_apart shadow.pairwise_renameCandidates (.inl rfl)

/-- In a shadow each column has the verdict that it has by itself. -/
theorem mem_tableVerdicts_iff (shadow : s.IsShadowOf base) {v : ColumnVerdict} :
    (c, v) ∈ tableVerdicts dialect policy s live ↔
      c ∈ s.columns ∧ v = verdictAlone dialect policy s live c := by
  rw [shadow.tableVerdicts_eq, List.mem_map]
  constructor
  · rintro ⟨c', member, same⟩
    cases same
    exact ⟨mem_orderedColumns.mp member, rfl⟩
  · rintro ⟨member, rfl⟩
    exact ⟨c, mem_orderedColumns.mpr member, rfl⟩

/-- The key of a shadow, and nothing else in it, is renamed if it is missing and one live column is
called as it was when the tables had other names. -/
theorem mem_renamed_iff (shadow : s.IsShadowOf base) {former name : String}
    (lacks : hasColumn live name = false) :
    (former, name) ∈ (tableVerdicts dialect policy s live).filterMap renamed? ↔
      ∃ k ∈ s.columns, k.role? = some .surrogateKey ∧ k.name = name ∧
        (freeFormers s live [] k).map LiveColumn.name = [former] := by
  have absent := hasColumn_eq_false_iff.mp lacks
  rw [mem_renamed]
  constructor
  · rintro ⟨k, f, verdict, same⟩
    cases same
    obtain ⟨member, alone⟩ := shadow.mem_tableVerdicts_iff.mp verdict
    rw [verdictAlone, absent] at alone
    have only := missingVerdict_eq_rename alone.symm
    refine ⟨k, member, ?_, rfl, by rw [only]; rfl⟩
    by_contra other
    rw [freeFormers_of_silent (shadow.renameCandidates_eq_nil member other)] at only
    cases only
  · rintro ⟨k, member, _, rfl, names⟩
    obtain ⟨f, only, rfl⟩ := List.map_eq_singleton_iff.mp names
    refine ⟨k, f, shadow.mem_tableVerdicts_iff.mpr ⟨member, ?_⟩, rfl⟩
    rw [verdictAlone, absent, only]
    rfl

/-- A history column that is missing is added, whatever the table has in its place. -/
theorem verdict_of_missing (shadow : s.IsShadowOf base) {b : Column}
    (business : b ∈ base.businessColumns) (lacks : hasColumn live b.name = false) :
    ∃ c, c.name = b.name ∧ c.datatype = b.datatype ∧
      (c, missingVerdict c []) ∈ tableVerdicts dialect policy s live := by
  obtain ⟨c, member, name, role, datatype⟩ := exists_mem_shadowColumns_of_business business
  rw [← shadow.columns] at member
  refine ⟨c, name, datatype, shadow.mem_tableVerdicts_iff.mpr ⟨member, ?_⟩⟩
  have silent :=
    shadow.renameCandidates_eq_nil member (role ▸ role?_ne_surrogateKey_of_business business)
  rw [verdictAlone, name, hasColumn_eq_false_iff.mp lacks, freeFormers_of_silent silent]

end Dataset.IsShadowOf

/-! ### Plans -/

section

variable {dialect : Dialect} {policy : DriftPolicy} {base s : Dataset} {live : LiveSchema}
    {physical : String}

/-- In a shadow only the key can be renamed, and only from one former name that is free. -/
theorem Dataset.IsShadowOf.renameColumn_mem_iff (shadow : s.IsShadowOf base)
    (found : physicalTable? s live = some physical) {former name : String}
    (lacks : hasColumn (live.columns s.schema physical) name = false) :
    .renameColumn s.schema s.name former name ∈ (planDrift s live dialect policy).steps ↔
      ∃ k ∈ s.columns, k.role? = some .surrogateKey ∧ k.name = name ∧
        (freeFormers s (live.columns s.schema physical) [] k).map LiveColumn.name = [former] := by
  rw [Warehouse.renameColumn_mem_iff found, shadow.mem_renamed_iff lacks]
  constructor
  · exact fun renamed => renamed.2.2
  · exact fun renamed => ⟨rfl, rfl, renamed⟩

/-- A history column that is missing is added, if it has a type. -/
theorem Dataset.IsShadowOf.addColumn_mem (shadow : s.IsShadowOf base)
    (found : physicalTable? s live = some physical) {b : Column}
    (business : b ∈ base.businessColumns)
    (lacks : hasColumn (live.columns s.schema physical) b.name = false) {type : DataType}
    (typed : b.type? = some type) :
    .addColumn s.schema s.name ⟨b.name, type, true⟩ ∈ (planDrift s live dialect policy).steps := by
  obtain ⟨c, name, datatype, verdict⟩ := shadow.verdict_of_missing business lacks
  rw [missingVerdict, Column.type?, datatype, ← Column.type?, typed] at verdict
  rw [steps_of_found found]
  refine List.mem_append_right _ (mem_verdictSteps_iff.mpr (.inr (.inl ⟨_, ?_, rfl⟩)))
  exact mem_added.mpr ⟨c, type, verdict, by rw [name]⟩

/-- A history column that is missing and has no type blocks the plan. -/
theorem Dataset.IsShadowOf.blocker_mem (shadow : s.IsShadowOf base)
    (found : physicalTable? s live = some physical) {b : Column}
    (business : b ∈ base.businessColumns)
    (lacks : hasColumn (live.columns s.schema physical) b.name = false) (untyped : b.type? = none) :
    ⟨s.key, b.name, b.datatype⟩ ∈ (planDrift s live dialect policy).blockers := by
  obtain ⟨c, name, datatype, verdict⟩ := shadow.verdict_of_missing business lacks
  rw [missingVerdict, Column.type?, datatype, ← Column.type?, untyped] at verdict
  obtain ⟨_, plan⟩ := planDrift_of_found dialect policy found
  rw [plan]
  refine List.mem_filterMap.mpr ⟨_, verdict, ?_⟩
  rw [columnBlocker?, name, datatype]

end

/-- What becomes of a business column of the base that the table of its shadow lacks. Whatever the
base's own plan does, a live column is renamed to it only if it bears the name of the shadow's key
and the live column is the only one that is called as the key was under a former name of the shadow;
and in any case an empty column of that name is added, or the plan is blocked because the column has
no type. -/
theorem shadow_renames_iff {doc : CatalogDocument} {catalog : Catalog}
    (accepted : Catalog.ofDocument doc = .ok catalog) {base s : Dataset}
    (baseMember : base ∈ catalog.datasets) (plain : base.isShadow = false)
    (wanted : catalog.wantsHistory base = true) (member : s ∈ catalog.datasets)
    (named : s.key = shadowKey base.key) (dialect : Dialect) (policy : DriftPolicy)
    {live : LiveSchema} {physical : String} (found : physicalTable? s live = some physical)
    {b : Column} (business : b ∈ base.businessColumns)
    (lacks : hasColumn (live.columns s.schema physical) b.name = false) (former : String) :
    (.renameColumn s.schema s.name former b.name ∈ (planDrift s live dialect policy).steps ↔
      ∃ k ∈ s.columns, k.role? = some .surrogateKey ∧ k.name = b.name ∧
        (freeFormers s (live.columns s.schema physical) [] k).map LiveColumn.name = [former]) ∧
    (∀ type, b.type? = some type →
      .addColumn s.schema s.name ⟨b.name, type, true⟩ ∈ (planDrift s live dialect policy).steps) ∧
    (b.type? = none → ⟨s.key, b.name, b.datatype⟩ ∈
      (planDrift s live dialect policy).blockers) := by
  have sound := Catalog.sound_of_ofDocument accepted
  obtain ⟨shadow, _⟩ := sound.isShadowOf baseMember plain wanted member named
  refine ⟨shadow.renameColumn_mem_iff found lacks, fun type typed => ?_, fun untyped => ?_⟩
  · exact shadow.addColumn_mem found business lacks typed
  · exact shadow.blocker_mem found business lacks untyped

/-! ### A name that was longer -/

/-- The name of a customer, called otherwise before. -/
def shortName : Column := { Column.plain "name" "varchar(200)" 3 with formerNames := ["full_name"] }

/-- Customers with such a name. -/
def shortCustomers : Dataset :=
  { customers with
    inputs := []
    columns :=
      [{ Column.plain "customers_key" "varchar(64)" 1 with role? := some .surrogateKey },
       { Column.plain "id" "bigint" 2 with role? := some .businessKey },
       shortName] }

def shortDocument : CatalogDocument :=
  ⟨[⟨"core", .rawcore, true, false, true⟩], [shortCustomers], []⟩

def shortCatalog : Catalog :=
  { shortDocument with datasets := [shortCustomers, deriveShadow shortCustomers 3] }

/-- The database with both tables from before the name changed. -/
def longNames : LiveSchema :=
  (LiveSchema.empty.withTable "core" "customers"
      [⟨"customers_key", "varchar(64)", true⟩, ⟨"id", "bigint", true⟩,
        ⟨"full_name", "varchar(200)", true⟩]).withTable
    "core" "customers_hist"
      [⟨"customers_hist_key", "varchar(64)", true⟩, ⟨"id", "bigint", true⟩,
        ⟨"full_name", "varchar(200)", true⟩,
       ⟨"row_hash", "varchar(64)", true⟩, ⟨"version_started_at", "timestamp", false⟩,
       ⟨"version_ended_at", "timestamp", true⟩, ⟨"version_state", "varchar(16)", true⟩,
       ⟨"load_run_id", "varchar(64)", true⟩]

private theorem orderedColumns_shortCustomers :
    shortCustomers.orderedColumns = shortCustomers.columns :=
  List.mergeSort_of_pairwise (by decide)

/-- The catalog of the customers with the shorter name. -/
theorem ofDocument_shortDocument : Catalog.ofDocument shortDocument = .ok shortCatalog := by
  with_unfolding_all rfl

/-- The plan for the customers renames the column of names. -/
theorem steps_shortCustomers : (planDrift shortCustomers longNames .postgres {}).steps =
    [.renameColumn "core" "customers" "full_name" "name"] := by
  simp only [planDrift, planColumns, orderedColumns_shortCustomers]
  rfl

private theorem shortName_mem : shortName ∈ shortCustomers.businessColumns := by
  rw [Dataset.businessColumns, orderedColumns_shortCustomers]
  decide

/-- Nothing of the history is renamed to the name. -/
theorem key_ne_name {k : Column} (member : k ∈ (deriveShadow shortCustomers 3).columns)
    (key : k.role? = some .surrogateKey) : k.name ≠ "name" := by
  rw [(deriveShadow_isShadowOf shortCustomers 3).name_of_surrogateKey member key]
  decide

/-- The plan for the history of the customers adds a column of names, beside the one that has
them. -/
theorem name_added_to_history :
    .renameColumn "core" "customers_hist" "full_name" "name" ∉
        (planDrift (deriveShadow shortCustomers 3) longNames .postgres {}).steps ∧
      .addColumn "core" "customers_hist" ⟨"name", .varchar 200, true⟩ ∈
        (planDrift (deriveShadow shortCustomers 3) longNames .postgres {}).steps := by
  have found : physicalTable? (deriveShadow shortCustomers 3) longNames =
    some "customers_hist" := rfl
  have lacks : hasColumn (longNames.columns "core" "customers_hist") "name" = false := rfl
  obtain ⟨renames, adds, _⟩ :=
    shadow_renames_iff ofDocument_shortDocument List.mem_cons_self rfl rfl
      (List.mem_cons_of_mem _ List.mem_cons_self) rfl .postgres
      {} found shortName_mem lacks "full_name"
  refine ⟨fun renamed => ?_, adds _ rfl⟩
  obtain ⟨k, member, key, named, _⟩ := renames.mp renamed
  exact key_ne_name member key named

/-- Not every rename in a base is followed by its shadow. -/
theorem not_always_followed :
    ¬ ∀ (doc : CatalogDocument) (catalog : Catalog) (base s : Dataset) (dialect : Dialect)
      (policy : DriftPolicy) (live : LiveSchema) (former : String) (b : Column),
      Catalog.ofDocument doc = .ok catalog →
      base ∈ catalog.datasets → base.isShadow = false → catalog.wantsHistory base = true →
      s ∈ catalog.datasets → s.key = shadowKey base.key →
      live.hasTable base.schema base.name = true → live.hasTable s.schema s.name = true →
      b ∈ base.businessColumns →
      .renameColumn base.schema base.name former b.name ∈
        (planDrift base live dialect policy).steps →
      hasColumn (live.columns s.schema s.name) former = true →
      hasColumn (live.columns s.schema s.name) b.name = false →
      .renameColumn s.schema s.name former b.name ∈ (planDrift s live dialect policy).steps := by
  intro always
  have lacks : hasColumn (longNames.columns "core" "customers_hist") "name" = false := rfl
  have renamed :=
    always shortDocument shortCatalog shortCustomers (deriveShadow shortCustomers 3) .postgres {}
    longNames "full_name" shortName ofDocument_shortDocument List.mem_cons_self rfl rfl
      (List.mem_cons_of_mem _ List.mem_cons_self) rfl rfl (by decide +kernel) shortName_mem
      (steps_shortCustomers ▸ List.mem_singleton_self _) rfl lacks
  have found : physicalTable? (deriveShadow shortCustomers 3) longNames =
    some "customers_hist" := rfl
  obtain ⟨k, member, key, named, _⟩ :=
    ((deriveShadow_isShadowOf shortCustomers 3).renameColumn_mem_iff found lacks).mp renamed
  exact key_ne_name member key named

end Warehouse
