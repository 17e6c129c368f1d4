/-
Module: Warehouse.Proofs.Catalog.Reload
Purpose: A catalog that is written down and read again is the same. What the first reading brings
  about is found by the second: inputs have been linked, shadows are there and are up to date, and
  nothing else is ever changed.
Trusted boundary: none
Main exports: linkSources_eq_self, syncShadow_eq_self, Sound.ofDocument_toDocument,
  Catalog.SameSchemas, Catalog.reload
-/
import Warehouse.Proofs.Catalog.ShadowTurns

namespace Warehouse

namespace Catalog

/-- The catalog with its schemas written down in another way. -/
def withSchemas (c : Catalog) (schemas : List Schema) : Catalog := { c with schemas := schemas }

/-- Whether each name stands for the same schema in that list as in the catalog. -/
def SameSchemas (c : Catalog) (schemas : List Schema) : Prop :=
  ∀ name, (c.withSchemas schemas).schema? name = c.schema? name

variable {c : Catalog}

/-! ### Linking again -/

/-- Nothing is added that is there already. -/
theorem addMissing_eq_self {keys more : List DatasetKey} (there : more ⊆ keys) :
    addMissing keys more = keys := by
  induction more with
  | nil => rfl
  | cons k rest ih =>
    obtain ⟨first, others⟩ := List.cons_subset.mp there
    rw [addMissing_cons, if_pos (List.contains_iff_mem.mpr first)]
    exact ih others

/-- A dataset that is linked stays as it is when it is linked again. -/
theorem linkSources_eq_self {g : QueryGraph} {d : Dataset} (reads : ReadsItsTree g d) :
    linkSources g d = d := by
  rw [linkSources]
  split
  · rfl
  · next root tree => rw [addMissing_eq_self (reads root tree)]

/-! ### Shadows again -/

/-- A shadow that reads its base is up to date. -/
theorem resync_eq_self {base s : Dataset} {id : UInt32} (shadow : s.IsShadowOf base)
    (reads : base.key ∈ s.inputs) : resync base.key (deriveShadow base id) s = s := by
  have columns : (deriveShadow base id).columns = s.columns := shadow.columns.symm
  have naturalKeys : (deriveShadow base id).naturalKeys = s.naturalKeys := shadow.naturalKeys.symm
  have histOf : (deriveShadow base id).histOf? = s.histOf? := shadow.histOf.symm
  rw [resync, columns, naturalKeys, histOf, if_pos (List.contains_iff_mem.mpr reads)]

/-- A turn changes nothing if the shadow of the base is in step with it, but there must still be a
next number, though it is not used. -/
theorem syncShadow_eq_self {base : Dataset} (distinct : c.DistinctKeys)
    (member : base ∈ c.datasets) (shadowed : c.HasShadow base)
    (left : c.largestId + 1 < UInt32.size) (schemas : c.SchemasDeclared) :
    c.syncShadow base.key = .ok c := by
  obtain ⟨c', sync⟩ := exists_syncShadow distinct schemas member left
  obtain ⟨number, base', _, found, turn⟩ := syncShadow_eq_ok_iff.mp sync
  obtain rfl := Option.some.inj (found.symm.trans (distinct.get? member))
  obtain ⟨s, there, shadow, reads⟩ := shadowed
  rw [sync]
  cases turn with
  | generated _ absent => exact absurd ⟨s, there, shadow.key⟩ absent
  | updated _ =>
    -- The shadow is the only dataset that is touched, and it is as it should be.
    have kept : c.datasets.map (fun d => if d.key = shadowKey base'.key then
        resync base'.key (deriveShadow base' number) d else d) = c.datasets := by
      refine (List.map_congr_left fun d listed => ?_).trans (List.map_id c.datasets)
      by_cases same : d.key = shadowKey base'.key
      · obtain rfl := distinct.eq listed there (same.trans shadow.key.symm)
        rw [if_pos same, resync_eq_self shadow reads, id]
      · rw [if_neg same, id]
    rw [kept]

/-- If every base has its shadow, the turns change nothing, as long as there is a next number. -/
theorem syncShadowsOf_eq_self {keys : List DatasetKey} (distinct : c.DistinctKeys)
    (schemas : c.SchemasDeclared) (left : c.largestId + 1 < UInt32.size)
    (shadowed : ∀ key ∈ keys, ∃ base ∈ c.datasets, base.key = key ∧ c.HasShadow base) :
    c.syncShadowsOf keys = .ok c := by
  induction keys with
  | nil => rfl
  | cons key rest ih =>
    obtain ⟨⟨base, member, rfl, shadow⟩, others⟩ := List.forall_mem_cons.mp shadowed
    exact bind_eq_ok_iff.mpr ⟨c, syncShadow_eq_self distinct member shadow left schemas, ih others⟩

/-! ### The whole catalog -/

/-- A catalog is linked already when it is read as a document. -/
theorem linked_toDocument (sound : c.Sound) : c.toDocument.linked = c := by
  have same : c.datasets.map (linkSources c.queryGraph) = c.datasets :=
    (List.map_congr_left fun d member => linkSources_eq_self (sound.linked d member)).trans
      (List.map_id c.datasets)
  exact congrArg (fun ds => { c with datasets := ds }) same

/-- A sound catalog is the one that its own document describes, just if there are numbers enough
when its shadows, which are there, have their turns. -/
theorem Sound.ofDocument_toDocument (sound : c.Sound) (schemas : c.SchemasDeclared)
    (queried : ∀ id key, (id, key) ∈ c.queryGraph.references → ∃ d ∈ c.datasets, d.key = key) :
    ofDocument c.toDocument = .ok c ↔ c.toDocument.NumbersSuffice := by
  refine ⟨numbersSuffice_of_ofDocument, fun suffice => ?_⟩
  refine ofDocument_eq_ok_iff.mpr ⟨schemas, sound.distinct, queried, ?_, sound.known⟩
  rw [CatalogDocument.historizedKeys_linked, linked_toDocument sound]
  have shadowed : ∀ key ∈ c.toDocument.bases, ∃ base ∈ c.datasets, base.key = key ∧
      c.HasShadow base := by
    intro key listed
    obtain ⟨base, kept, rfl⟩ := List.mem_map.mp listed
    obtain ⟨member, wants⟩ := List.mem_filter.mp kept
    rw [Bool.and_eq_true, Bool.not_eq_true'] at wants
    exact ⟨base, member, rfl, sound.shadowed base member wants.1 wants.2⟩
  rw [CatalogDocument.NumbersSuffice] at suffice
  generalize c.toDocument.bases = bases at suffice shadowed
  cases bases with
  | nil => rfl
  | cons key rest => exact syncShadowsOf_eq_self sound.distinct schemas suffice.left shadowed

/-- A catalog stays sound if its schemas are found as before. -/
theorem Sound.withSchemas {schemas : List Schema} (sound : c.Sound) (same : c.SameSchemas schemas) :
    (c.withSchemas schemas).Sound where
  distinct := sound.distinct
  known := sound.known
  linked := sound.linked
  shadowed d member plain wanted := by
    rw [wantsHistory, same, ← wantsHistory] at wanted
    exact sound.shadowed d member plain wanted

/-- Other schemas of the same names declare as much. -/
private theorem SchemasDeclared.withSchemas {schemas : List Schema} (declared : c.SchemasDeclared)
    (same : c.SameSchemas schemas) : (c.withSchemas schemas).SchemasDeclared := by
  intro d member
  by_contra none
  rw [← schema?_isNone_iff, same, schema?_isNone_iff] at none
  exact none (declared d member)

variable {doc : CatalogDocument}

/-- The schemas bear on the numbers only by which datasets want a history. -/
theorem numbersSuffice_withSchemas {schemas : List Schema} (same : c.SameSchemas schemas) :
    (c.withSchemas schemas).toDocument.NumbersSuffice ↔ c.toDocument.NumbersSuffice := by
  have wants (d : Dataset) : (c.withSchemas schemas).wantsHistory d = c.wantsHistory d := by
    rw [wantsHistory, wantsHistory, same]
  have bases : (c.withSchemas schemas).toDocument.bases = c.toDocument.bases :=
    congrArg (fun p => (c.datasets.filter p).map Dataset.key)
      (funext fun d => congrArg (! d.isShadow && ·) (wants d))
  rw [CatalogDocument.NumbersSuffice, bases]
  rfl

/-- A catalog that was made from a document is made again from its own, the same in every field, as
long as there are numbers enough for its turns; and also if its schemas are written down in another
way, as long as each name stands for the schema for which it stood. -/
theorem reload (accepted : ofDocument doc = .ok c) :
    (ofDocument c.toDocument = .ok c ↔ c.toDocument.NumbersSuffice) ∧
      ∀ schemas, c.SameSchemas schemas →
        (ofDocument (c.withSchemas schemas).toDocument = .ok (c.withSchemas schemas) ↔
          c.toDocument.NumbersSuffice) := by
  have all := syncedAll_of_ofDocument accepted
  have sound := sound_of_ofDocument accepted
  have queried : ∀ id key, (id, key) ∈ c.queryGraph.references → ∃ d ∈ c.datasets, d.key = key := by
    intro id key named
    have graph : c.queryGraph = doc.declared.queryGraph := congrArg QueryGraph.mk all.queryNodes
    rw [graph] at named
    exact all.provides_iff.mpr (.inl ((ofDocument_eq_ok_iff.mp accepted).2.2.1 id key named))
  refine ⟨sound.ofDocument_toDocument all.schemasDeclared queried, fun schemas same => ?_⟩
  rw [← numbersSuffice_withSchemas same]
  exact (sound.withSchemas same).ofDocument_toDocument
    (all.schemasDeclared.withSchemas same) queried

/-- A table that is called like the shadow of the customers, before it is made that. -/
def plainHistory : Dataset :=
  { stagedCustomers with id := 3, schema := "core", name := "customers_hist" }

/-- The customers with the table as their shadow. -/
def historyCatalog : Catalog :=
  { (customersDocument [plainHistory] []).declared with
    datasets :=
      [stagedCustomers, customers, resync customers.key (deriveShadow customers 4) plainHistory] }

/-- The table is made a shadow once, and the order of the schemas does not matter. -/
theorem reload_history :
    ofDocument (customersDocument [plainHistory] []) = .ok historyCatalog ∧
      ofDocument historyCatalog.toDocument = .ok historyCatalog ∧
      ofDocument (historyCatalog.withSchemas historyCatalog.schemas.reverse).toDocument =
        .ok (historyCatalog.withSchemas historyCatalog.schemas.reverse) := by
  have accepted : ofDocument (customersDocument [plainHistory] []) = .ok historyCatalog := by
    with_unfolding_all rfl
  have same : historyCatalog.SameSchemas historyCatalog.schemas.reverse := by
    intro name
    simp only [schema?, withSchemas, historyCatalog, CatalogDocument.declared, customersDocument,
      List.reverse_cons,
      List.reverse_nil, List.nil_append, List.cons_append, List.find?_cons, List.find?_nil]
    by_cases stage : "stage" = name
    · subst stage
      rfl
    · rw [decide_eq_false stage]
  have suffice : historyCatalog.toDocument.NumbersSuffice := by decide
  exact ⟨accepted, (reload accepted).1.mpr suffice, ((reload accepted).2 _ same).mpr suffice⟩

end Catalog

end Warehouse
