/-
Module: Warehouse.Proofs.Catalog.Fingerprint
Purpose: What the text that is hashed for a catalog says. It says all about the datasets, whatever
  their order, and nothing else about the catalog.
Trusted boundary: none
Main exports: Catalog.Legible, Catalog.fingerprintText_eq_of_perm,
  Catalog.perm_of_fingerprintText_eq, Catalog.fingerprintText_eq_iff, Catalog.perm_iff_get?_eq,
  CatalogDocument.Legible, Catalog.legible_of_ofDocument
-/
import Warehouse.Catalog.Fingerprint
import Warehouse.Proofs.Catalog.Acceptance
import Warehouse.Proofs.Catalog.Encoding

namespace Warehouse

namespace Catalog

/-- A catalog of datasets whose JSON form says which keys they name. -/
def Legible (c : Catalog) : Prop := ∀ d ∈ c.datasets, d.Legible

variable {c c' : Catalog}

private theorem datasetsByKey_perm (c : Catalog) : c.datasetsByKey.Perm c.datasets :=
  List.mergeSort_perm _ _

/-- What is hashed comes in the order of the keys. -/
theorem pairwise_datasetsByKey (c : Catalog) : c.datasetsByKey.Pairwise fun a b =>
    a.key.le b.key = true := by
  refine List.pairwise_mergeSort ?_ ?_ c.datasets
  · exact fun a b d => DatasetKey.le_trans a.key b.key d.key
  · exact fun a b => DatasetKey.le_total a.key b.key

/-- Whether keys are distinct does not depend on the order of the datasets. -/
theorem DistinctKeys.perm (distinct : c.DistinctKeys) (perm : c.datasets.Perm c'.datasets) :
    c'.DistinctKeys :=
  (perm.map Dataset.key).nodup_iff.mp distinct

/-- The order of the datasets does not count. -/
theorem fingerprintText_eq_of_perm (distinct : c.DistinctKeys)
    (perm : c.datasets.Perm c'.datasets) : c.fingerprintText = c'.fingerprintText := by
  have sorted : c.datasetsByKey.Perm c'.datasetsByKey :=
    (c.datasetsByKey_perm.trans perm).trans c'.datasetsByKey_perm.symm
  have same : c.datasetsByKey = c'.datasetsByKey := by
    refine sorted.eq_of_pairwise (fun d e member member' before after => ?_)
      c.pairwise_datasetsByKey c'.pairwise_datasetsByKey
    have member' : e ∈ c.datasets := perm.mem_iff.mpr (c'.datasetsByKey_perm.mem_iff.mp member')
    exact distinct.eq (c.datasetsByKey_perm.mem_iff.mp member) member'
      (DatasetKey.le_antisymm before after)
  rw [fingerprintText, fingerprintText, same]

private theorem lexical_datasets (ds : List Dataset) :
    (Json.array (ds.map Dataset.toJson)).Lexical :=
  .array (List.forall_mem_map.mpr fun d _ => d.lexical_toJson)

/-- From the text of a catalog its datasets are known. -/
theorem perm_of_fingerprintText_eq (legible : c.Legible) (legible' : c'.Legible)
    (same : c.fingerprintText = c'.fingerprintText) : c.datasets.Perm c'.datasets := by
  have values := Json.compact_inj (lexical_datasets c.datasetsByKey).sorted
    (lexical_datasets c'.datasetsByKey).sorted same
  have datasets : c.datasetsByKey = c'.datasetsByKey := by
    refine Json.eq_of_sorted_array_eq (fun d member e member' equal => ?_) values
    exact Dataset.eq_of_sorted_toJson_eq (legible d (c.datasetsByKey_perm.mem_iff.mp member))
      (legible' e (c'.datasetsByKey_perm.mem_iff.mp member')) equal
  calc
    c.datasets.Perm c.datasetsByKey := c.datasetsByKey_perm.symm
    _ = c'.datasetsByKey := datasets
    List.Perm _ c'.datasets := c'.datasetsByKey_perm

/-- Catalogs have the same text just if they have the same datasets. -/
theorem fingerprintText_eq_iff (distinct : c.DistinctKeys) (legible : c.Legible)
    (legible' : c'.Legible) :
    c.fingerprintText = c'.fingerprintText ↔ c.datasets.Perm c'.datasets :=
  ⟨perm_of_fingerprintText_eq legible legible', fingerprintText_eq_of_perm distinct⟩

/-! ### Look-up -/

/-- What is found under a key is what has it. -/
theorem DistinctKeys.get?_eq_some_iff (distinct : c.DistinctKeys) {key : DatasetKey} {d : Dataset} :
    c.get? key = some d ↔ d ∈ c.datasets ∧ d.key = key := by
  constructor
  · exact of_get?
  · rintro ⟨member, rfl⟩
    exact distinct.get? member

/-- Catalogs with the same datasets are those in which the same is found under every key. -/
theorem perm_iff_get?_eq (distinct : c.DistinctKeys) (distinct' : c'.DistinctKeys) :
    c.datasets.Perm c'.datasets ↔ ∀ key, c.get? key = c'.get? key := by
  rw [List.perm_ext_iff_of_nodup (List.Nodup.of_map _ distinct) (List.Nodup.of_map _ distinct')]
  constructor
  · intro same key
    refine Option.ext fun d => ?_
    rw [distinct.get?_eq_some_iff, distinct'.get?_eq_some_iff, same]
  · intro same d
    have found : c.get? d.key = some d ↔ d ∈ c.datasets ∧ d.key = d.key := distinct.get?_eq_some_iff
    rw [same, distinct'.get?_eq_some_iff, and_iff_left rfl, and_iff_left rfl] at found
    exact found.symm

end Catalog

/-! ### Documents whose catalogs are legible -/

/-- Whether all keys that are named in a document are plain, as those are that are read off a
text. -/
structure CatalogDocument.Legible (doc : CatalogDocument) : Prop where
  datasets : ∀ d ∈ doc.datasets, ∀ k ∈ d.references, k.Plain
  queryNodes : ∀ n ∈ doc.queryNodes, ∀ k, n.dataset? = some k → k.Plain

/-- The columns of a shadow are fed by its base alone. -/
theorem input_of_mem_shadowColumns {base : Dataset} {c : Column} (member : c ∈ shadowColumns base)
    {l : Lineage} (feeds : l ∈ c.lineage) : l.input = base.key := by
  obtain ⟨c', member', same⟩ := exists_of_mem_numbered member
  rw [same] at feeds
  simp only [List.mem_append, List.mem_map, List.mem_cons, List.not_mem_nil, or_false] at member'
  rcases member' with (rfl | ⟨b, _, rfl⟩) | rfl | rfl | rfl | rfl | rfl
  case inl.inr => exact congrArg Lineage.input (List.mem_singleton.mp feeds)
  all_goals cases feeds

/-- A shadow can name its base, and what else it reads as before. -/
theorem Dataset.IsShadowOf.legible {d base : Dataset} (shadow : d.IsShadowOf base)
    (inputs : ∀ k ∈ d.inputs, k = base.key ∨ k.LegibleFrom d.key) : d.Legible := by
  intro k named
  have ofBase : base.key.LegibleFrom d.key := .inr shadow.key
  rcases d.mem_references.mp named with input | histOf | ⟨c, member, l, feeds, rfl⟩
  · rcases inputs k input with rfl | legible
    · exact ofBase
    · exact legible
  · obtain rfl := Option.some.inj (shadow.histOf.symm.trans histOf)
    exact ofBase
  · rw [shadow.columns] at member
    rw [input_of_mem_shadowColumns member feeds]
    exact ofBase

namespace Catalog

variable {c c' : Catalog} {doc : CatalogDocument}

/-- A turn adds a shadow or changes one, and a shadow can name its base. -/
theorem Legible.syncShadow {key : DatasetKey} (legible : c.Legible)
    (sync : c.syncShadow key = .ok c') : c'.Legible := by
  obtain ⟨number, base, _, found, turn⟩ := syncShadow_eq_ok_iff.mp sync
  cases turn with
  | updated =>
    refine List.forall_mem_map.mpr fun e member => ?_
    by_cases same : e.key = shadowKey base.key
    · rw [if_pos same]
      rw [← key_deriveShadow base number] at same
      refine (resync_isShadowOf same).legible fun k input => ?_
      refine (mem_inputs_resync.mp input).imp_right fun input => ?_
      exact legible e member k (e.mem_references.mpr (.inl input))
    · rw [if_neg same]
      exact legible e member
  | generated =>
    refine List.forall_mem_append.mpr ⟨legible, List.forall_mem_singleton.mpr ?_⟩
    exact (deriveShadow_isShadowOf base _).legible fun k input => .inl (List.mem_singleton.mp input)

/-- A whole run of turns leaves a catalog that can be read off one that can be read off. -/
theorem Legible.syncShadowsOf {keys : List DatasetKey} (legible : c.Legible)
    (sync : c.syncShadowsOf keys = .ok c') : c'.Legible := by
  induction keys generalizing c with
  | nil =>
    cases sync
    exact legible
  | cons key rest ih =>
    obtain ⟨c₁, first, others⟩ := bind_eq_ok_iff.mp sync
    exact ih (legible.syncShadow first) others

/-- If the keys that a document names are plain, its catalog is legible. -/
theorem legible_of_ofDocument (accepted : ofDocument doc = .ok c) (legible : doc.Legible) :
    c.Legible := by
  obtain ⟨_, _, _, synced, _⟩ := ofDocument_eq_ok_iff.mp accepted
  refine Legible.syncShadowsOf (fun d member k named => .inl ?_) synced
  obtain ⟨e, declared, rfl⟩ := CatalogDocument.mem_linked_iff.mp member
  have declares (there : k ∈ e.references) : k.Plain := legible.datasets e declared k there
  rcases (Dataset.mem_references _).mp named with input | histOf | column
  · rcases mem_inputs_linkSources.mp input with input | ⟨root, _, source⟩
    · exact declares (e.mem_references.mpr (.inl input))
    · obtain ⟨id, n, node, named⟩ := QueryGraph.exists_node_of_mem_sourceDatasets source
      exact legible.queryNodes n (List.mem_reverse.mp (List.mem_of_find?_eq_some node)) k named
  · rw [linkSources_eq] at histOf
    exact declares (e.mem_references.mpr (.inr (.inl histOf)))
  · rw [linkSources_eq] at column
    exact declares (e.mem_references.mpr (.inr (.inr column)))

end Catalog

end Warehouse
