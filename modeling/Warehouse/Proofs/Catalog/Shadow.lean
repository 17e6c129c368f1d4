/-
Module: Warehouse.Proofs.Catalog.Shadow
Purpose: What makes a dataset the shadow of another, however it came into the catalog, and which
  columns it has for which purpose. If the base has no business column under one of the names that a
  shadow adds, the name of a column of the shadow tells its role.
Trusted boundary: none
Main exports: Dataset.IsShadowOf, addedColumns, Dataset.AvoidsAddedNames, mem_shadowColumns,
  exists_mem_shadowColumns_of_business, formerNames_of_mem_shadowColumns, pairwise_shadowColumns,
  role?_eq_of_added, isBusiness_of_business
-/
import Warehouse.Catalog.Basic
import Warehouse.Proofs.Catalog.Columns

namespace Warehouse

/-- What a dataset has from the base whose history it keeps. -/
structure Dataset.IsShadowOf (d base : Dataset) : Prop where
  schema : d.schema = base.schema
  name : d.name = base.name ++ shadowSuffix
  columns : d.columns = shadowColumns base
  naturalKeys : d.naturalKeys = base.naturalKeys
  histOf : d.histOf? = some base.key

/-- A shadow that is generated. -/
theorem deriveShadow_isShadowOf (base : Dataset) (id : UInt32) :
    (deriveShadow base id).IsShadowOf base :=
  ⟨rfl, rfl, rfl, rfl, rfl⟩

/-- A shadow that is declared and brought up to date. -/
theorem resync_isShadowOf {base existing : Dataset} {id : UInt32}
    (declared : existing.key = (deriveShadow base id).key) :
    (Catalog.resync base.key (deriveShadow base id) existing).IsShadowOf base := by
  obtain ⟨schema, name⟩ := DatasetKey.mk.inj declared
  exact ⟨schema, name, rfl, rfl, rfl⟩

/-- A dataset is not its own shadow. -/
theorem Dataset.IsShadowOf.name_ne {d base : Dataset} (shadow : d.IsShadowOf base) :
    base.name ≠ d.name := by
  intro same
  have lengths := congrArg String.length (same.trans shadow.name)
  simp [shadowSuffix] at lengths

/-! ### The columns of a shadow -/

/-- The columns that bound and describe a version. -/
def versionColumns : List (String × SystemRole) :=
  [("row_hash", .rowHash), ("version_started_at", .versionStartedAt),
   ("version_ended_at", .versionEndedAt), ("version_state", .versionState),
   ("load_run_id", .loadRunId)]

/-- The columns that a shadow has beside those of its base. -/
def addedColumns (base : Dataset) : List (String × SystemRole) :=
  (base.name ++ shadowSuffix ++ "_key", .surrogateKey) :: versionColumns

/-- No business column is called like a column that a shadow adds. -/
def Dataset.AvoidsAddedNames (base : Dataset) : Prop :=
  ∀ c ∈ base.businessColumns, ∀ p ∈ addedColumns base, Text.sameIgnoringAsciiCase c.name p.1 = false

instance (base : Dataset) : Decidable base.AvoidsAddedNames :=
  inferInstanceAs (Decidable (∀ c ∈ base.businessColumns, ∀ p ∈ addedColumns base, _ = false))

/-- What does not depend on the places of columns stays the same when they are numbered. -/
theorem map_numbered {β : Type} {f : Column → β} (placeless : ∀ c : Column, f c.placeless = f c)
    (columns : List Column) : (numbered columns).map f = columns.map f := by
  refine List.ext_getElem? fun i => ?_
  simp only [numbered, List.getElem?_map, List.getElem?_mapIdx, Option.map_map]
  congr 1
  funext c
  exact (placeless _).symm.trans (placeless c)

/-- The names and roles of the columns of a shadow. -/
theorem shadowColumns_names_roles (base : Dataset) :
    (shadowColumns base).map (fun c => (c.name, c.role?)) =
      (base.name ++ shadowSuffix ++ "_key", some .surrogateKey) ::
        (base.businessColumns.map (fun c => (c.name, c.role?)) ++
          versionColumns.map fun p => (p.1, some p.2)) := by
  rw [shadowColumns, map_numbered fun _ => rfl]
  simp [systemColumn, Column.plain, shadowColumn, versionColumns, Function.comp_def]

/-- A column of a shadow is one that it adds, or one of its base. -/
theorem mem_shadowColumns {base : Dataset} {c : Column} (member : c ∈ shadowColumns base) :
    (∃ p ∈ addedColumns base, c.name = p.1 ∧ c.role? = some p.2) ∨
      ∃ b ∈ base.businessColumns, c.name = b.name ∧ c.role? = b.role? := by
  have pair := List.mem_map_of_mem (f := fun c : Column => (c.name, c.role?)) member
  rw [shadowColumns_names_roles, List.mem_cons, List.mem_append, List.mem_map, List.mem_map] at pair
  rcases pair with key | ⟨b, business, same⟩ | ⟨p, version, same⟩
  · obtain ⟨name, role⟩ := Prod.mk.inj key
    exact .inl ⟨_, List.mem_cons_self, name, role⟩
  · obtain ⟨name, role⟩ := Prod.mk.inj same
    exact .inr ⟨b, business, name.symm, role.symm⟩
  · obtain ⟨name, role⟩ := Prod.mk.inj same
    exact .inl ⟨p, List.mem_cons_of_mem _ version, name.symm, role.symm⟩

/-- Each column that tells a version has its place and its role in every shadow. -/
theorem exists_mem_shadowColumns_of_version (base : Dataset) {p : String × SystemRole}
    (version : p ∈ versionColumns) : ∃ c ∈ shadowColumns base, c.name = p.1 ∧
    c.role? = some p.2 := by
  have pair : (p.1, some p.2) ∈ (shadowColumns base).map fun c => (c.name, c.role?) := by
    rw [shadowColumns_names_roles]
    exact List.mem_cons_of_mem _ (List.mem_append_right _ (List.mem_map_of_mem version))
  obtain ⟨c, member, same⟩ := List.mem_map.mp pair
  exact ⟨c, member, (Prod.mk.inj same).1, (Prod.mk.inj same).2⟩

/-- A column that is numbered differs from what it was in its ordinal alone. -/
theorem exists_of_mem_numbered {columns : List Column} {c : Column}
    (member : c ∈ numbered columns) : ∃ c' ∈ columns, c = { c' with ordinal := c.ordinal } := by
  rw [numbered, List.mem_mapIdx] at member
  obtain ⟨i, bound, rfl⟩ := member
  exact ⟨columns[i], List.getElem_mem bound, rfl⟩

/-- Numbers are put on columns, and nothing else of them is changed. -/
private theorem exists_mem_numbered {columns : List Column} {c : Column} (member : c ∈ columns) :
    ∃ ordinal, { c with ordinal := ordinal } ∈ numbered columns := by
  obtain ⟨i, bound, rfl⟩ := List.mem_iff_getElem.mp member
  exact ⟨_, List.mem_mapIdx.mpr ⟨i, bound, rfl⟩⟩

/-- The column in which a shadow keeps the history of one of its base. -/
theorem exists_mem_shadowColumns_of_business {base : Dataset} {b : Column}
    (business : b ∈ base.businessColumns) :
    ∃ c ∈ shadowColumns base, c.name = b.name ∧ c.role? = b.role? ∧ c.datatype = b.datatype := by
  have derived : shadowColumn base.key b ∈ base.businessColumns.map (shadowColumn base.key) :=
    List.mem_map_of_mem business
  obtain ⟨ordinal, member⟩ :=
    exists_mem_numbered (List.mem_append_left _ (List.mem_append_right _ derived))
  exact ⟨_, member, rfl, rfl, rfl⟩

/-- No column of a shadow has former names. -/
theorem formerNames_of_mem_shadowColumns {base : Dataset} {c : Column}
    (member : c ∈ shadowColumns base) : c.formerNames = [] := by
  obtain ⟨c', member', same⟩ := exists_of_mem_numbered member
  rw [same]
  simp only [List.mem_append, List.mem_map, List.mem_cons, List.not_mem_nil, or_false] at member'
  rcases member' with (rfl | ⟨b, _, rfl⟩) | rfl | rfl | rfl | rfl | rfl <;> rfl

/-! ### Keys -/

/-- A business column does not carry the surrogate key. -/
theorem role?_ne_surrogateKey_of_business {base : Dataset} {b : Column}
    (business : b ∈ base.businessColumns) : b.role? ≠ some .surrogateKey := by
  intro key
  have keeps := (List.mem_filter.mp business).2
  rw [Column.isBusiness, key] at keeps
  cases keeps

private theorem ne_surrogateKey_of_version {p : String × SystemRole}
    (version : p ∈ versionColumns) : p.2 ≠ .surrogateKey := by
  revert p
  decide

/-- What has the role of a key in a shadow is called like it. -/
theorem Dataset.IsShadowOf.name_of_surrogateKey {base s : Dataset} {c : Column}
    (shadow : s.IsShadowOf base) (member : c ∈ s.columns) (key : c.role? = some .surrogateKey) :
    c.name = s.name ++ "_key" := by
  rw [shadow.columns] at member
  rcases mem_shadowColumns member with ⟨p, added, name, role⟩ | ⟨b, business, _, role⟩
  · rcases List.mem_cons.mp added with rfl | version
    · rw [name, shadow.name]
    · exact absurd (Option.some.inj (role.symm.trans key)) (ne_surrogateKey_of_version version)
  · exact absurd (role.symm.trans key) (role?_ne_surrogateKey_of_business business)

/-- No two columns of a shadow have the role of a key. -/
theorem pairwise_shadowColumns (base : Dataset) : (shadowColumns base).Pairwise fun a b =>
    a.role? ≠ some .surrogateKey ∨ b.role? ≠ some .surrogateKey := by
  have keys : ((shadowColumns base).map fun c => (c.name, c.role?)).Pairwise fun a b =>
      a.2 ≠ some .surrogateKey ∨ b.2 ≠ some .surrogateKey := by
    rw [shadowColumns_names_roles]
    have others : ∀ p ∈ base.businessColumns.map (fun c => (c.name, c.role?)) ++
        versionColumns.map (fun p => (p.1, some p.2)), p.2 ≠ some .surrogateKey := by
      intro p member
      rcases List.mem_append.mp member with ofBase | added
      · obtain ⟨b, business, rfl⟩ := List.mem_map.mp ofBase
        exact role?_ne_surrogateKey_of_business business
      · obtain ⟨q, version, rfl⟩ := List.mem_map.mp added
        exact fun key => ne_surrogateKey_of_version version (Option.some.inj key)
    refine List.pairwise_cons.mpr ⟨fun p member => .inr (others p member), ?_⟩
    exact List.pairwise_of_forall_mem_list fun p member _ _ => .inl (others p member)
  rw [List.pairwise_map] at keys
  exact keys

/-! ### Names and roles

The key and the columns that tell a version have names of their own, which no business column may
take. Under that condition a name in a shadow tells the role of the column. -/

/-- The name of the key ends in a letter in which no other name ends. -/
theorem keyName_differs (base : Dataset) {q : String × SystemRole} (hq : q ∈ versionColumns) :
    Text.sameIgnoringAsciiCase (base.name ++ shadowSuffix ++ "_key") q.1 = false := by
  by_contra same
  have ends := getLast?_of_same (Bool.not_eq_false _ ▸ same)
  have differs : ∀ q ∈ versionColumns, q.1.toList.getLast?.map Char.toLower ≠ some 'y' := by decide
  exact absurd (ends.symm.trans (by simp)) (differs q hq)

/-- The names of the added columns tell their roles. -/
theorem role_eq_of_same_name {base : Dataset} {p q : String × SystemRole}
    (hp : p ∈ addedColumns base) (hq : q ∈ versionColumns)
    (same : Text.sameIgnoringAsciiCase p.1 q.1 = true) : p.2 = q.2 := by
  rcases List.mem_cons.mp hp with rfl | version
  · exact absurd same (Bool.eq_false_iff.mp (keyName_differs base hq))
  · have distinct : ∀ p ∈ versionColumns, ∀ q ∈ versionColumns,
        Text.sameIgnoringAsciiCase p.1 q.1 = true → p.2 = q.2 := by decide
    exact distinct p version q hq same

/-- What is called like a column that bounds or describes a version has its role. -/
theorem role?_eq_of_added {base : Dataset} (avoids : base.AvoidsAddedNames) {c : Column}
    (member : c ∈ shadowColumns base) {p : String × SystemRole} (version : p ∈ versionColumns)
    (same : Text.sameIgnoringAsciiCase c.name p.1 = true) : c.role? = some p.2 := by
  rcases mem_shadowColumns member with ⟨q, added, name, role⟩ | ⟨b, business, name, _⟩
  · rw [role, role_eq_of_same_name added version (name ▸ same)]
  · rw [name, avoids b business p (List.mem_cons_of_mem _ version)] at same
    cases same

/-- What is called like a business column of the base holds the history of one. -/
theorem isBusiness_of_business {base : Dataset} (avoids : base.AvoidsAddedNames) {c : Column}
    (member : c ∈ shadowColumns base) {b : Column} (business : b ∈ base.businessColumns)
    (same : Text.sameIgnoringAsciiCase c.name b.name = true) : c.isBusiness = true := by
  rcases mem_shadowColumns member with ⟨q, added, name, _⟩ | ⟨b', business', _, role⟩
  · rw [name, same_comm, avoids b business q added] at same
    cases same
  · have keeps := (List.mem_filter.mp business').2
    simpa [Column.isBusiness, role] using keeps

end Warehouse
