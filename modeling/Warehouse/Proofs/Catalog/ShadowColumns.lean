/-
Module: Warehouse.Proofs.Catalog.ShadowColumns
Purpose: The columns of a shadow as a table has them. They are numbered from 1 up, and those that
  hold data of the business are the ones of the base, once each and in their order. But no two
  columns are called alike just if the base has no business column under a name that the shadow
  adds: such a name comes twice.
Trusted boundary: none
Main exports: ordinals_numbered_iff, shadowColumns_names, filter_isBusiness_shadowColumns,
  distinctNames_deriveShadow_iff, countP_shadowColumns_eq_one_iff, shadow_columns_distinct_iff
-/
import Mathlib.Data.List.Nodup
import Mathlib.Data.String.Basic
import Mathlib.Tactic.NthRewrite
import Warehouse.Proofs.Catalog.Shadow

namespace Warehouse

/-! ### Numbers of columns

The columns of a shadow are numbered from one on in the order in which they are derived, whatever
numbers those of the base had. -/

/-- The numbers are one, two and so on. -/
private theorem ordinals_numbered (columns : List Column) : (numbered columns).map Column.ordinal =
    (List.range' 1 columns.length).map UInt32.ofNat := by
  refine List.ext_getElem (by simp [numbered]) fun i _ _ => ?_
  simp [numbered, Nat.add_comm]

/-- The columns are numbered 1, 2 and so on just if there are fewer columns than numbers. -/
theorem ordinals_numbered_iff {columns : List Column} :
    (numbered columns).map (fun c => c.ordinal.toNat) = List.range' 1 (numbered columns).length ↔
      (numbered columns).length < UInt32.size := by
  rw [numbered, List.length_mapIdx, ← numbered]
  have ordinals : (numbered columns).map (fun c => c.ordinal.toNat) =
      (List.range' 1 columns.length).map fun n => (UInt32.ofNat n).toNat := by
    have places := congrArg (List.map UInt32.toNat) (ordinals_numbered columns)
    rwa [List.map_map, List.map_map] at places
  have kept (n : Nat) : (UInt32.ofNat n).toNat = id n ↔ n < UInt32.size := by
    rw [UInt32.toNat_ofNat', id_eq, Nat.mod_eq_iff_lt (by decide)]
  rw [ordinals]
  nth_rewrite 2 [← List.map_id (List.range' 1 columns.length)]
  simp only [List.map_inj_left, kept]
  constructor
  · intro fit
    by_contra many
    have last : UInt32.size ∈ List.range' 1 columns.length :=
      List.mem_range'_1.mpr ⟨by decide, by omega⟩
    exact absurd (fit _ last) (lt_irrefl _)
  · intro few n member
    have upTo := (List.mem_range'_1.mp member).2
    omega

/-! ### Business columns -/

variable {base : Dataset}

/-- The columns of a shadow that hold data of the business are those of its base, in their order. -/
theorem filter_isBusiness_shadowColumns (base : Dataset) :
    ((shadowColumns base).filter Column.isBusiness).map Column.placeless =
      base.businessColumns.map (shadowColumn base.key) := by
  have kept : (base.businessColumns.map (shadowColumn base.key)).filter Column.isBusiness =
      base.businessColumns.map (shadowColumn base.key) := by
    refine List.filter_eq_self.mpr fun c derived => ?_
    obtain ⟨b, business, rfl⟩ := List.mem_map.mp derived
    exact (List.mem_filter.mp business).2
  have placeless : (base.businessColumns.map (shadowColumn base.key)).map Column.placeless =
      base.businessColumns.map (shadowColumn base.key) := by
    rw [List.map_map]
    rfl
  calc ((shadowColumns base).filter Column.isBusiness).map Column.placeless
      = ((shadowColumns base).map Column.placeless).filter Column.isBusiness :=
        (List.filter_map (f := Column.placeless) (p := Column.isBusiness)).symm
    _ = base.businessColumns.map (shadowColumn base.key) := by
      rw [shadowColumns, map_numbered fun _ => rfl, List.map_append, List.map_append, placeless,
        List.filter_append, List.filter_append, kept]
      exact List.append_nil _

/-- The business columns are those of the dataset that count as such. -/
theorem businessColumns_perm (base : Dataset) :
    base.businessColumns.Perm (base.columns.filter Column.isBusiness) :=
  (List.mergeSort_perm base.columns _).filter _

/-- They come in the order of their numbers. -/
private theorem pairwise_businessColumns (base : Dataset) :
    base.businessColumns.Pairwise fun a b => a.ordinal ≤ b.ordinal :=
  (pairwise_orderedColumns base).filter _

/-! ### Names of columns -/

/-- The key comes first, business columns follow, and those that tell a version close the list. -/
theorem shadowColumns_names (base : Dataset) : (shadowColumns base).map Column.name =
    (base.name ++ shadowSuffix ++ "_key") ::
      (base.businessColumns.map Column.name ++ versionColumns.map Prod.fst) := by
  simpa [Function.comp_def] using congrArg (List.map Prod.fst) (shadowColumns_names_roles base)

private theorem length_shadowColumns (base : Dataset) :
    (shadowColumns base).length = base.businessColumns.length + 6 := by
  simpa [versionColumns] using congrArg List.length (shadowColumns_names base)

/-- Which names a base has to avoid: that of the key, and those that tell a version. -/
theorem avoidsAddedNames_iff : base.AvoidsAddedNames ↔ ∀ c ∈ base.businessColumns,
    Text.sameIgnoringAsciiCase c.name (base.name ++ shadowSuffix ++ "_key") = false ∧
      ∀ p ∈ versionColumns, Text.sameIgnoringAsciiCase c.name p.1 = false :=
  forall₂_congr fun _ _ => List.forall_mem_cons

/-- No two columns of a shadow are called alike just if no business column of its base is called
like one that the shadow adds. -/
theorem distinctNames_deriveShadow_iff (distinct : base.DistinctNames) (id : UInt32) :
    (deriveShadow base id).DistinctNames ↔ base.AvoidsAddedNames := by
  have names : (deriveShadow base id).columns.map Column.name =
    (base.name ++ shadowSuffix ++ "_key") ::
      (base.businessColumns.map Column.name ++ versionColumns.map Prod.fst) :=
    shadowColumns_names base
  rw [Dataset.distinctNames_iff, names, List.pairwise_cons, List.pairwise_append,
    avoidsAddedNames_iff]
  constructor
  · rintro ⟨key, _, _, apart⟩ c business
    have listed : c.name ∈ base.businessColumns.map Column.name := List.mem_map_of_mem business
    refine ⟨?_, fun p version => apart _ listed _ (List.mem_map_of_mem version)⟩
    rw [same_comm]
    exact key _ (List.mem_append_left _ listed)
  · intro avoids
    have versions : (versionColumns.map Prod.fst).Pairwise
        fun a b => Text.sameIgnoringAsciiCase a b = false := by decide +kernel
    refine ⟨?_, distinct.business, versions, ?_⟩
    · intro name listed
      rcases List.mem_append.mp listed with ofBase | added
      · obtain ⟨c, business, rfl⟩ := List.mem_map.mp ofBase
        rw [same_comm]
        exact (avoids c business).1
      · obtain ⟨p, version, rfl⟩ := List.mem_map.mp added
        exact keyName_differs base version
    · intro name ofBase name' added
      obtain ⟨c, business, rfl⟩ := List.mem_map.mp ofBase
      obtain ⟨p, version, rfl⟩ := List.mem_map.mp added
      exact (avoids c business).2 p version

/-- The name of a business column comes once in the shadow just if the shadow adds no column of that
name. -/
theorem countP_shadowColumns_eq_one_iff (distinct : base.DistinctNames) {b : Column}
    (business : b ∈ base.businessColumns) :
    (shadowColumns base).countP (fun c => Text.sameIgnoringAsciiCase b.name c.name) = 1 ↔
      ∀ p ∈ addedColumns base, Text.sameIgnoringAsciiCase b.name p.1 = false := by
  have ofBase :
      base.businessColumns.countP (fun c => Text.sameIgnoringAsciiCase b.name c.name) = 1 := by
    have only : ∀ c ∈ base.businessColumns,
        Text.sameIgnoringAsciiCase b.name c.name = true ↔ (c == b) = true := by
      intro c there
      rw [beq_iff_eq]
      refine ⟨fun same => ?_, fun same => same ▸ BEq.refl _⟩
      exact (distinct.eq (mem_columns_of_business business)
        (mem_columns_of_business there) same).symm
    have nodup : base.businessColumns.Nodup := by
      refine (List.pairwise_map.mp distinct.business).imp fun differ same => ?_
      rw [same] at differ
      exact absurd (BEq.refl _) (Bool.eq_false_iff.mp differ)
    rw [List.countP_congr only]
    exact List.count_eq_one_of_mem nodup business
  have parts : (shadowColumns base).countP (fun c => Text.sameIgnoringAsciiCase b.name c.name) =
      (addedColumns base).countP (fun p => Text.sameIgnoringAsciiCase b.name p.1) + 1 := by
    have names :=
      congrArg (List.countP fun name => Text.sameIgnoringAsciiCase b.name name)
        (shadowColumns_names base)
    rw [List.countP_map, List.countP_cons, List.countP_append, List.countP_map,
      List.countP_map] at names
    simp only [Function.comp_def] at names
    rw [names, ofBase, addedColumns, List.countP_cons]
    dsimp only
    omega
  rw [parts, Nat.add_eq_right, List.countP_eq_zero]
  simp only [Bool.not_eq_true]

/-! ### The whole list -/

/-- The columns of the shadow of a base whose column names differ. Their names differ just if no
business column of the base has a name that the shadow adds, and the name of any one of these comes
once just if it is no such name. The ordinals count from 1 as far as there are numbers, and the
columns that hold data of the business are those of the base, once each, by ascending ordinals. -/
theorem shadow_columns_distinct_iff (distinct : base.DistinctNames) (id : UInt32) :
    ((deriveShadow base id).DistinctNames ↔ base.AvoidsAddedNames) ∧
    (∀ b ∈ base.businessColumns,
      ((deriveShadow base id).columns.countP fun c =>
        Text.sameIgnoringAsciiCase b.name c.name) = 1 ↔
        ∀ p ∈ addedColumns base, Text.sameIgnoringAsciiCase b.name p.1 = false) ∧
    ((deriveShadow base id).columns.map (fun c => c.ordinal.toNat) =
      List.range' 1 (deriveShadow base id).columns.length ↔
        base.businessColumns.length + 6 < UInt32.size) ∧
    ((deriveShadow base id).columns.filter Column.isBusiness).map Column.placeless =
      base.businessColumns.map (shadowColumn base.key) ∧
    base.businessColumns.Perm (base.columns.filter Column.isBusiness) ∧
    base.businessColumns.Pairwise fun a b => a.ordinal ≤ b.ordinal := by
  refine ⟨distinctNames_deriveShadow_iff distinct id,
    fun b => countP_shadowColumns_eq_one_iff distinct, ?_,
    filter_isBusiness_shadowColumns base, businessColumns_perm base, pairwise_businessColumns base⟩
  rw [← length_shadowColumns]
  exact ordinals_numbered_iff

/-- The columns of the history of the customers. -/
theorem shadow_columns_of_customers : customers.DistinctNames ∧ customers.AvoidsAddedNames ∧
    (deriveShadow customers 3).DistinctNames ∧
    (deriveShadow customers 3).columns.map (fun c => c.ordinal.toNat) =
      List.range' 1 (deriveShadow customers 3).columns.length := by
  have business : customers.businessColumns = customers.columns.tail := by
    rw [Dataset.businessColumns, orderedColumns_customers]
    rfl
  have distinct : customers.DistinctNames := by decide +kernel
  have avoids : customers.AvoidsAddedNames := by
    rw [avoidsAddedNames_iff, business]
    decide +kernel
  have columns := shadow_columns_distinct_iff distinct 3
  refine ⟨distinct, avoids, columns.1.mpr avoids, columns.2.2.1.mpr ?_⟩
  rw [business]
  decide

/-- Letters that come with a hash of their own. -/
def hashedLetters : Dataset :=
  { customers with
    name := "letters"
    columns :=
      [{ Column.plain "id" "bigint" 1 with role? := some .businessKey },
       Column.plain "row_hash" "varchar(40)" 2] }

/-- Their shadow has two columns of that name. -/
theorem not_always_distinct_columns : hashedLetters.DistinctNames ∧
    (shadowColumns hashedLetters).map Column.name =
      ["letters_hist_key", "id", "row_hash", "row_hash",
      "version_started_at", "version_ended_at", "version_state", "load_run_id"] ∧
    ¬ ∀ base id, base.DistinctNames → (deriveShadow base id).DistinctNames := by
  have ordered : hashedLetters.orderedColumns = hashedLetters.columns :=
    List.mergeSort_of_pairwise (by decide)
  have business : hashedLetters.businessColumns = hashedLetters.columns := by
    rw [Dataset.businessColumns, ordered]
    rfl
  have distinct : hashedLetters.DistinctNames := by decide +kernel
  refine ⟨distinct, ?_, fun always => ?_⟩
  · rw [shadowColumns_names, business]
    decide +kernel
  · have avoids :=
      avoidsAddedNames_iff.mp ((distinctNames_deriveShadow_iff distinct 3).mp (always _ 3 distinct))
    rw [business] at avoids
    exact absurd avoids (by decide +kernel)

end Warehouse
