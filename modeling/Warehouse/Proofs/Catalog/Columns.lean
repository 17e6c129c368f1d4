/-
Module: Warehouse.Proofs.Catalog.Columns
Purpose: The columns of a dataset, by order and by name. Names agree or differ whatever the case of
  ASCII letters.
Trusted boundary: none
Main exports: same_comm, same_trans, mem_orderedColumns, of_column?, exists_column?,
  Dataset.DistinctNames, column?_eq_some, Column.placeless, pairwise_orderedColumns, customers
-/
import Mathlib.Data.List.Pairwise
import Warehouse.Catalog.Dataset

namespace Warehouse

/-! ### Names without regard to case -/

theorem same_comm (a b : String) : Text.sameIgnoringAsciiCase a b =
    Text.sameIgnoringAsciiCase b a :=
  BEq.comm

/-- Names that agree with the same name up to case agree with each other. -/
theorem same_trans {a b c : String} (ab : Text.sameIgnoringAsciiCase a b = true)
    (bc : Text.sameIgnoringAsciiCase b c = true) : Text.sameIgnoringAsciiCase a c = true := by
  simp only [Text.sameIgnoringAsciiCase, beq_iff_eq] at *
  rw [ab, bc]

/-- Names that agree but for their case end alike. -/
theorem getLast?_of_same {a b : String} (same : Text.sameIgnoringAsciiCase a b = true) :
    a.toList.getLast?.map Char.toLower = b.toList.getLast?.map Char.toLower := by
  simp only [Text.sameIgnoringAsciiCase, Text.asciiLower, beq_iff_eq, String.ofList_inj] at same
  rw [← List.getLast?_map, ← List.getLast?_map, same]

/-! ### Finding columns -/

/-- To put columns in order neither adds nor drops any. -/
theorem mem_orderedColumns {d : Dataset} {c : Column} : c ∈ d.orderedColumns ↔ c ∈ d.columns :=
  (List.mergeSort_perm d.columns _).mem_iff

theorem mem_columns_of_business {d : Dataset} {c : Column} (business : c ∈ d.businessColumns) :
    c ∈ d.columns := mem_orderedColumns.mp (List.mem_filter.mp business).1

/-- A column that is found is one of the dataset, and called as asked. -/
theorem of_column? {d : Dataset} {name : String} {c : Column} (found : d.column? name = some c) :
    c ∈ d.columns ∧ Text.sameIgnoringAsciiCase c.name name = true := by
  unfold Dataset.column? at found
  exact ⟨List.mem_of_find?_eq_some found, by simpa using List.find?_some found⟩

/-- A column is found if there is one that is called as asked. -/
theorem exists_column? {d : Dataset} {name : String} {c : Column} (member : c ∈ d.columns)
    (same : Text.sameIgnoringAsciiCase c.name name = true) :
    ∃ found, d.column? name = some found := by
  rw [← Option.isSome_iff_exists, Dataset.column?, List.find?_isSome]
  exact ⟨c, member, same⟩

/-- Names that agree but for their case find the same column. -/
theorem column?_congr (d : Dataset) {a b : String} (same : Text.sameIgnoringAsciiCase a b = true) :
    d.column? a = d.column? b := by
  simp only [Text.sameIgnoringAsciiCase, beq_iff_eq] at same
  simp only [Dataset.column?, Text.sameIgnoringAsciiCase, same]

/-- No two columns are called alike. -/
def Dataset.DistinctNames (d : Dataset) : Prop :=
  d.columns.Pairwise fun a b => Text.sameIgnoringAsciiCase a.name b.name = false

instance (d : Dataset) : Decidable d.DistinctNames :=
  inferInstanceAs (Decidable (List.Pairwise _ _))

/-- A name up to case stands for one column. -/
theorem Dataset.DistinctNames.eq {d : Dataset} (distinct : d.DistinctNames) {a b : Column}
    (ha : a ∈ d.columns) (hb : b ∈ d.columns)
    (same : Text.sameIgnoringAsciiCase a.name b.name = true) :
    a = b := by
  by_contra ne
  have symmetric : Std.Symm fun a b : Column => Text.sameIgnoringAsciiCase a.name b.name = false :=
    ⟨fun _ _ differ => by rwa [same_comm]⟩
  rw [List.Pairwise.forall distinct ha hb ne] at same
  cases same

/-- The column that is found is the only one that is called as asked. -/
theorem column?_eq_some {d : Dataset} (distinct : d.DistinctNames) {c : Column} {name : String}
    (member : c ∈ d.columns) (same : Text.sameIgnoringAsciiCase c.name name = true) :
    d.column? name = some c := by
  obtain ⟨found, lookup⟩ := exists_column? member same
  obtain ⟨foundMember, foundSame⟩ := of_column? lookup
  rw [lookup, distinct.eq foundMember member (same_trans foundSame (by rwa [same_comm]))]

/-- That the names of a dataset are distinct is a condition on each pair of columns. -/
theorem Dataset.distinctNames_iff {d : Dataset} : d.DistinctNames ↔
    (d.columns.map Column.name).Pairwise fun a b => Text.sameIgnoringAsciiCase a b = false := by
  rw [Dataset.DistinctNames, List.pairwise_map]

/-- The names of the business columns differ too. -/
theorem Dataset.DistinctNames.business {d : Dataset} (distinct : d.DistinctNames) :
    (d.businessColumns.map Column.name).Pairwise fun a b =>
    Text.sameIgnoringAsciiCase a b = false := by
  have names : (d.columns.map Column.name).Perm (d.orderedColumns.map Column.name) :=
    (List.mergeSort_perm d.columns _).symm.map _
  have ordered :=
    (names.pairwise_iff fun differ => by rwa [same_comm]).mp (distinctNames_iff.mp distinct)
  exact ordered.sublist (List.filter_sublist.map _)

/-! ### Places -/

/-- The column without its place. -/
def Column.placeless (c : Column) : Column := { c with ordinal := 0 }

theorem Column.name_eq_of_placeless {c c' : Column} (moved : c'.placeless = c.placeless) :
    c'.name = c.name := by
  have names : c'.placeless.name = c.placeless.name := by rw [moved]
  exact names

/-- The columns come in the order of their ordinals. -/
theorem pairwise_orderedColumns (d : Dataset) :
    d.orderedColumns.Pairwise fun a b => a.ordinal ≤ b.ordinal := by
  refine (List.pairwise_mergeSort ?_ ?_ d.columns).imp of_decide_eq_true
  · intro a b c before after
    exact decide_eq_true (UInt32.le_trans (of_decide_eq_true before) (of_decide_eq_true after))
  · intro a b
    simpa using UInt32.le_total a.ordinal b.ordinal

/-- Columns in the order of distinct ordinals are what any rearrangement of them is put into. -/
theorem orderedColumns_eq {d : Dataset} {columns : List Column} (perm : columns.Perm d.columns)
    (ascending : columns.Pairwise fun a b => a.ordinal < b.ordinal) :
    d.orderedColumns = columns := by
  have sorted : d.orderedColumns.Perm columns := (List.mergeSort_perm d.columns _).trans perm.symm
  have symmetric : Std.Symm fun a b : Column => a.ordinal ≠ b.ordinal :=
    ⟨fun _ _ apart => apart.symm⟩
  have apart : columns.Pairwise fun a b => a.ordinal ≠ b.ordinal := ascending.imp UInt32.ne_of_lt
  apply sorted.eq_of_pairwise _ (pairwise_orderedColumns d) (ascending.imp UInt32.le_of_lt)
  intro a b first second le ge
  by_contra differ
  exact apart.forall (sorted.mem_iff.mp first) second differ (UInt32.le_antisymm le ge)

/-! ### A dataset for examples -/

/-- The table that the customers below come from. -/
def arrivedCustomers : DatasetKey := ⟨"stage", "customers"⟩

/-- Customers, merged by their number, under a key of the platform's own. -/
def customers : Dataset where
  id := 2
  schema := "core"
  name := "customers"
  strategy := .merge
  materialization := .incremental
  historize? := some true
  naturalKeys := ["id"]
  formerNames := []
  handleDeletes := true
  incrementalFilter? := none
  inputs := [arrivedCustomers]
  sources := []
  columns :=
    [{ Column.plain "customers_key" "varchar(64)" 1 with role? := some .surrogateKey },
     { Column.plain "id" "bigint" 2 with
       role? := some .businessKey, lineage := [⟨arrivedCustomers, "CustomerID", true⟩] },
     { Column.plain "name" "varchar(200)" 3 with lineage := [⟨arrivedCustomers, "Name", true⟩] }]
  queryRoot? := none
  histOf? := none

theorem orderedColumns_customers : customers.orderedColumns = customers.columns :=
  List.mergeSort_of_pairwise (by decide)

end Warehouse
