/-
Module: Warehouse.Proofs.Catalog.Stages
Purpose: Between a document and its catalog: the declared datasets, the same linked to their query
  trees, and what giving shadows to those that want history does to them all. It fails only where
  the numbers for shadows run out, and besides the shadows it changes nothing. So a document is
  accepted just if what each step looks for is there.
Trusted boundary: none
Main exports: CatalogDocument.linked, CatalogDocument.Historizes, CatalogDocument.Provides,
  SyncedAll, exists_syncShadow, syncShadow_eq_error, syncedAll_of_syncShadowsOf,
  ofDocument_eq_ok_iff, syncedAll_of_ofDocument, customersDocument
-/
import Warehouse.Proofs.Catalog.Document

namespace Warehouse

namespace CatalogDocument

/-- The catalog with the declared datasets, as they are. -/
def declared (doc : CatalogDocument) : Catalog := ⟨doc.schemas, doc.datasets, doc.queryNodes⟩

/-- The catalog with the declared datasets, linked to their query trees. -/
def linked (doc : CatalogDocument) : Catalog :=
  { doc.declared with datasets := doc.datasets.map (Catalog.linkSources doc.declared.queryGraph) }

end CatalogDocument

namespace Catalog

/-- Whether the schema of every dataset is declared. -/
def SchemasDeclared (c : Catalog) : Prop := ∀ d ∈ c.datasets, ∃ s ∈ c.schemas, s.name = d.schema

variable {c c' : Catalog}

/-! ### Query trees

In the first stage a dataset with a query tree gets all that its tree reads as inputs. Keys, schemas
and all else stay as they were declared. -/

/-- The inputs of a linked dataset are its own, and those that its tree reads. -/
theorem mem_inputs_linkSources {g : QueryGraph} {d : Dataset} {u : DatasetKey} :
    u ∈ (linkSources g d).inputs ↔ u ∈ d.inputs ∨ ∃ root, d.queryRoot? = some root ∧
    u ∈ g.sourceDatasets root := by
  rw [linkSources]
  cases tree : d.queryRoot? with
  | none => simp
  | some root => simp [mem_addMissing]

/-- Linking a dataset to its query tree changes its inputs alone. -/
theorem linkSources_eq (g : QueryGraph) (d : Dataset) :
    linkSources g d = { d with inputs := (linkSources g d).inputs } := by
  rw [linkSources]
  split <;> rfl

/-! ### Shadows

In the second stage each base has its turn, in the order of the document. A turn fails only for want
of a base, of a schema or of a number; the first two are there in a catalog that passed the first
stage. -/

/-- A dataset that is there can be given its shadow, as long as there is a next number. -/
theorem exists_syncShadow {base : Dataset} (distinct : c.DistinctKeys)
    (schemas : c.SchemasDeclared) (member : base ∈ c.datasets)
    (left : c.largestId + 1 < UInt32.size) : ∃ c', c.syncShadow base.key = .ok c' := by
  have sum : (UInt32.ofNat (c.largestId + 1)).toNat = c.largestId + 1 := by
    rw [UInt32.toNat_ofNat']
    exact Nat.mod_eq_of_lt left
  have next : c.nextId = .ok (UInt32.ofNat (c.largestId + 1)) := nextId_eq_ok_iff.mpr ⟨left, sum⟩
  have turn (c' : Catalog) (turn : c.Turn base (.ofNat (c.largestId + 1)) c') :
      c.syncShadow base.key = .ok c' :=
    syncShadow_eq_ok_iff.mpr ⟨_, base, next, distinct.get? member, turn⟩
  by_cases declared : ∃ e ∈ c.datasets, e.key = shadowKey base.key
  · exact ⟨_, turn _ (.updated declared)⟩
  · exact ⟨_, turn _ (.generated (schemas base member) declared)⟩

/-- Where there is no next number, no turn succeeds. -/
theorem syncShadow_eq_error (full : ¬ c.largestId + 1 < UInt32.size) (key : DatasetKey) :
    c.syncShadow key = .error .numbersExhausted :=
  bind_eq_error_iff.mpr (.inl (nextId_eq_error full))

/-- Besides what was read, a base is read when it has got its shadow. -/
theorem reads_of_syncShadow {key u : DatasetKey} (sync : c.syncShadow key = .ok c') :
    (∃ d ∈ c'.datasets, u ∈ d.inputs) ↔ (∃ d ∈ c.datasets, u ∈ d.inputs) ∨ u = key := by
  obtain ⟨number, base, _, found, turn⟩ := syncShadow_eq_ok_iff.mp sync
  obtain ⟨member, rfl⟩ := of_get? found
  cases turn with
  | updated declared =>
    have image (e : Dataset) :
        u ∈ (if e.key = shadowKey base.key then resync base.key (deriveShadow base number) e
          else e).inputs ↔ u ∈ e.inputs ∨ e.key = shadowKey base.key ∧ u = base.key := by
      by_cases same : e.key = shadowKey base.key
      · rw [if_pos same, mem_inputs_resync, or_comm, and_iff_right same]
      · rw [if_neg same, or_iff_left fun both => same both.1]
    obtain ⟨old, oldMember, same⟩ := declared
    simp only [List.mem_map, exists_exists_and_eq_and, image]
    constructor
    · rintro ⟨e, member', input | ⟨_, rfl⟩⟩
      · exact .inl ⟨e, member', input⟩
      · exact .inr rfl
    · rintro (⟨e, member', input⟩ | rfl)
      · exact ⟨e, member', .inl input⟩
      · exact ⟨old, oldMember, .inr ⟨same, rfl⟩⟩
  | generated =>
    simp only [List.mem_append, List.mem_singleton, or_and_right, exists_or, exists_eq_left]
    exact or_congr_right List.mem_singleton

/-- The schema of a shadow is that of its base, so a turn leaves no schema undeclared. -/
theorem Synced.schemasDeclared {base : Dataset} (sync : Synced c c' base)
    (member : base ∈ c.datasets) (schemas : c.SchemasDeclared) : c'.SchemasDeclared := by
  intro d new
  rw [sync.schemas]
  rcases sync.sources d new with old | ⟨shadow, _⟩
  · exact schemas d old
  · rw [shadow.schema]
    exact schemas base member

/-- Under the key of the shadow there is nothing but the shadow. -/
theorem Synced.of_shadowKey {base d : Dataset} (sync : Synced c c' base) (distinct : c.DistinctKeys)
    (member : d ∈ c'.datasets) (named : d.key = shadowKey base.key) : d.IsShadowOf base := by
  obtain ⟨s, there, shadow, _⟩ := sync.there
  obtain rfl := (sync.distinct distinct).eq there member (shadow.key.trans named.symm)
  exact shadow

/-- After a turn the shadow is there, and what was there before. -/
theorem Synced.has_iff {base : Dataset} (sync : Synced c c' base) {key : DatasetKey} :
    (∃ d ∈ c'.datasets, d.key = key) ↔ (∃ d ∈ c.datasets, d.key = key) ∨
    key = shadowKey base.key := by
  constructor
  · rintro ⟨d, new, rfl⟩
    rcases sync.sources d new with old | ⟨shadow, _⟩
    · exact .inl ⟨d, old, rfl⟩
    · exact .inr shadow.key
  · intro before
    by_cases same : key = shadowKey base.key
    · obtain ⟨s, there, shadow, _⟩ := sync.there
      exact ⟨s, there, shadow.key.trans same.symm⟩
    · obtain ⟨d, old, rfl⟩ := before.resolve_right same
      exact ⟨d, sync.kept d old same, rfl⟩

/-- What giving the datasets of those keys their shadows does. -/
structure SyncedAll (c c' : Catalog) (keys : List DatasetKey) : Prop where
  schemas : c'.schemas = c.schemas
  queryNodes : c'.queryNodes = c.queryNodes
  distinct : c'.DistinctKeys
  schemasDeclared : c'.SchemasDeclared
  has_iff : ∀ key, (∃ d ∈ c'.datasets, d.key = key) ↔
    (∃ d ∈ c.datasets, d.key = key) ∨ ∃ b ∈ keys, key = shadowKey b
  reads_iff : ∀ u, (∃ d ∈ c'.datasets, u ∈ d.inputs) ↔ (∃ d ∈ c.datasets, u ∈ d.inputs) ∨ u ∈ keys
  /-- A dataset is as it was, or it was made or brought up to date as a shadow. -/
  sources : ∀ d ∈ c'.datasets, (d ∈ c.datasets ∧ ∀ b ∈ keys, d.key ≠ shadowKey b) ∨
    ∃ b ∈ keys, d.key = shadowKey b ∧ d.histOf? = some b
  kept : ∀ d ∈ c.datasets, (∀ b ∈ keys, d.key ≠ shadowKey b) → d ∈ c'.datasets

private theorem syncedAll_nil (distinct : c.DistinctKeys) (schemas : c.SchemasDeclared) :
    SyncedAll c c [] where
  schemas := rfl
  queryNodes := rfl
  distinct := distinct
  schemasDeclared := schemas
  has_iff := by simp
  reads_iff := by simp
  sources d member := .inl ⟨member, by simp⟩
  kept d member _ := member

/-- A turn followed by turns leaves a catalog in step with all their bases. -/
theorem SyncedAll.cons {c₁ : Catalog} {base : Dataset} {rest : List DatasetKey}
    (distinct : c.DistinctKeys) (first : c.syncShadow base.key = .ok c₁) (sync : Synced c c₁ base)
    (others : SyncedAll c₁ c' rest) :
    SyncedAll c c' (base.key :: rest) where
  schemas := others.schemas.trans sync.schemas
  queryNodes := others.queryNodes.trans sync.queryNodes
  distinct := others.distinct
  schemasDeclared := others.schemasDeclared
  has_iff key := by rw [others.has_iff, sync.has_iff, or_assoc, List.exists_mem_cons_iff]
  reads_iff u := by rw [others.reads_iff, reads_of_syncShadow first, or_assoc, List.mem_cons]
  sources d member := by
    rcases others.sources d member with ⟨between, apart⟩ | ⟨b, later, key, histOf⟩
    · by_cases named : d.key = shadowKey base.key
      · exact .inr ⟨base.key, List.mem_cons_self, named,
          (sync.of_shadowKey distinct between named).histOf⟩
      · refine .inl ⟨?_, List.forall_mem_cons.mpr ⟨named, apart⟩⟩
        exact (sync.sources d between).resolve_right fun shadow => named shadow.1.key
    · exact .inr ⟨b, List.mem_cons_of_mem _ later, key, histOf⟩
  kept d member apart := by
    obtain ⟨named, apart⟩ := List.forall_mem_cons.mp apart
    exact others.kept d (sync.kept d member named) apart

/-- What giving datasets their shadows does, one after another, if it succeeds. -/
theorem syncedAll_of_syncShadowsOf {keys : List DatasetKey} (distinct : c.DistinctKeys)
    (schemas : c.SchemasDeclared) (sync : c.syncShadowsOf keys = .ok c') : SyncedAll c c' keys := by
  induction keys generalizing c with
  | nil =>
    cases sync
    exact syncedAll_nil distinct schemas
  | cons key rest ih =>
    obtain ⟨c₁, first, later⟩ := bind_eq_ok_iff.mp sync
    obtain ⟨base, member, rfl, synced⟩ := synced_of_syncShadow first
    have others := ih (synced.distinct distinct) (synced.schemasDeclared member schemas) later
    exact others.cons distinct first synced

end Catalog

/-! ### The whole document -/

namespace CatalogDocument

open Catalog

variable {doc : CatalogDocument}

/-- Whether the dataset is declared, no shadow, and wants history. -/
def Historizes (doc : CatalogDocument) (base : Dataset) : Prop :=
  base ∈ doc.datasets ∧ base.isShadow = false ∧ doc.declared.wantsHistory base = true

/-- Whether a declared dataset has that key. -/
def Declares (doc : CatalogDocument) (key : DatasetKey) : Prop := ∃ d ∈ doc.datasets, d.key = key

/-- Whether the key is that of the shadow of a dataset that wants history. -/
def NamesShadow (doc : CatalogDocument) (key : DatasetKey) : Prop :=
  ∃ base, doc.Historizes base ∧ key = shadowKey base.key

/-- Whether the document makes a dataset of that key, as declared or as a shadow. -/
def Provides (doc : CatalogDocument) (key : DatasetKey) : Prop :=
  doc.Declares key ∨ doc.NamesShadow key

/-- A dataset that is linked to its query tree is one that was declared. -/
theorem mem_linked_iff {d : Dataset} :
    d ∈ doc.linked.datasets ↔ ∃ e ∈ doc.datasets, d = linkSources doc.declared.queryGraph e := by
  rw [linked, List.mem_map]
  exact exists_congr fun e => and_congr_right fun _ => eq_comm

/-- To link datasets does not change their keys. -/
theorem linked_keys : doc.linked.datasets.map Dataset.key = doc.datasets.map Dataset.key :=
  keys_linkSources _ _

/-- What is declared is there after linking. -/
theorem linked_has_iff {key : DatasetKey} : (∃ d ∈ doc.linked.datasets, d.key = key) ↔
    doc.Declares key := by
  rw [← List.mem_map, linked_keys, List.mem_map, Declares]

/-- Schemas that are declared are declared after linking. -/
theorem linked_schemasDeclared (schemas : doc.declared.SchemasDeclared) :
    doc.linked.SchemasDeclared := by
  intro d member
  obtain ⟨e, declared, rfl⟩ := mem_linked_iff.mp member
  rw [linkSources_eq]
  exact schemas e declared

/-- A dataset is no more a shadow when it is linked. -/
theorem isShadow_linkSources (g : QueryGraph) (d : Dataset) :
    (linkSources g d).isShadow = d.isShadow := by
  rw [linkSources_eq]
  rfl

/-- Nor does it want a history any more or less. -/
theorem wantsHistory_linkSources (g : QueryGraph) (d : Dataset) :
    doc.linked.wantsHistory (linkSources g d) = doc.declared.wantsHistory d := by
  rw [linkSources_eq]
  rfl

/-- The bases of shadows are those of the datasets as they are declared. -/
theorem mem_historizedKeys_iff {key : DatasetKey} :
    key ∈ doc.linked.historizedKeys ↔ ∃ base, doc.Historizes base ∧ base.key = key := by
  rw [historizedKeys, List.mem_map]
  simp only [List.mem_filter, Bool.and_eq_true, Bool.not_eq_true', mem_linked_iff]
  constructor
  · rintro ⟨_, ⟨⟨base, declared, rfl⟩, plain, wanted⟩, rfl⟩
    rw [isShadow_linkSources] at plain
    rw [wantsHistory_linkSources] at wanted
    exact ⟨base, ⟨declared, plain, wanted⟩, (linkSources_key _ base).symm⟩
  · rintro ⟨base, ⟨declared, plain, wanted⟩, rfl⟩
    refine ⟨_, ⟨⟨base, declared, rfl⟩, ?_, ?_⟩, linkSources_key _ base⟩
    · rw [isShadow_linkSources, plain]
    · rw [wantsHistory_linkSources, wanted]

/-- The shadows that a document names are those of its bases. -/
theorem namesShadow_iff {key : DatasetKey} :
    doc.NamesShadow key ↔ ∃ b ∈ doc.linked.historizedKeys, key = shadowKey b := by
  constructor
  · rintro ⟨base, historizes, rfl⟩
    exact ⟨base.key, mem_historizedKeys_iff.mpr ⟨base, historizes, rfl⟩, rfl⟩
  · rintro ⟨_, listed, rfl⟩
    obtain ⟨base, historizes, rfl⟩ := mem_historizedKeys_iff.mp listed
    exact ⟨base, historizes, rfl⟩

/-- Keys that are distinct in a document are distinct after linking. -/
theorem linked_distinctKeys (distinct : doc.declared.DistinctKeys) : doc.linked.DistinctKeys := by
  rw [DistinctKeys, linked_keys]
  exact distinct

end CatalogDocument

namespace Catalog

variable {doc : CatalogDocument} {c : Catalog}

/-- A document is accepted if its schemas and keys are in order, what its query nodes name is
declared, and what the datasets read is there when they have their shadows. -/
theorem ofDocument_eq_ok_iff :
    ofDocument doc = .ok c ↔
      doc.declared.SchemasDeclared ∧ doc.declared.DistinctKeys ∧
        (∀ id key, (id, key) ∈ doc.declared.queryGraph.references →
          ∃ d ∈ doc.datasets, d.key = key) ∧
        doc.linked.syncShadowsOf doc.linked.historizedKeys = .ok c ∧
        ∀ d ∈ c.datasets, ∀ u ∈ d.inputs, ∃ e ∈ c.datasets, e.key = u := by
  have first (c₁ : Catalog) : insertAll ⟨doc.schemas, [], doc.queryNodes⟩ doc.datasets = .ok c₁ ↔
      doc.declared.SchemasDeclared ∧ doc.declared.DistinctKeys ∧ c₁ = doc.declared :=
    insertAll_eq_ok_iff List.nodup_nil
  constructor
  · intro accepted
    obtain ⟨_, added, accepted⟩ := bind_eq_ok_iff.mp accepted
    obtain ⟨schemas, distinct, rfl⟩ := (first _).mp added
    obtain ⟨_, linked, accepted⟩ := bind_eq_ok_iff.mp accepted
    obtain ⟨queried, rfl⟩ := linkQuerySources_eq_ok_iff.mp linked
    obtain ⟨synced, third, accepted⟩ := bind_eq_ok_iff.mp accepted
    split at accepted
    · cases accepted
    · next closed =>
      cases accepted
      exact ⟨schemas, distinct, queried, third, danglingInput?_eq_none_iff.mp closed⟩
  · rintro ⟨schemas, distinct, queried, third, closed⟩
    refine bind_eq_ok_iff.mpr ⟨_, (first _).mpr ⟨schemas, distinct, rfl⟩, ?_⟩
    refine bind_eq_ok_iff.mpr ⟨_, linkQuerySources_eq_ok_iff.mpr ⟨queried, rfl⟩, ?_⟩
    refine bind_eq_ok_iff.mpr ⟨c, third, ?_⟩
    rw [danglingInput?_eq_none_iff.mpr closed]

/-- No key is declared twice in a document that is accepted. -/
theorem declared_distinctKeys (accepted : ofDocument doc = .ok c) : doc.declared.DistinctKeys :=
  (ofDocument_eq_ok_iff.mp accepted).2.1

/-- A catalog that is accepted is the linked document in step with all its bases. -/
theorem syncedAll_of_ofDocument (accepted : ofDocument doc = .ok c) :
    SyncedAll doc.linked c doc.linked.historizedKeys := by
  obtain ⟨schemas, distinct, _, synced, _⟩ := ofDocument_eq_ok_iff.mp accepted
  exact syncedAll_of_syncShadowsOf (CatalogDocument.linked_distinctKeys distinct)
    (CatalogDocument.linked_schemasDeclared schemas) synced

/-- A catalog in step with all bases has what the document declares, and the shadows of its
bases. -/
theorem SyncedAll.provides_iff (all : SyncedAll doc.linked c doc.linked.historizedKeys)
    {key : DatasetKey} : (∃ d ∈ c.datasets, d.key = key) ↔ doc.Provides key := by
  rw [all.has_iff, CatalogDocument.linked_has_iff, ← CatalogDocument.namesShadow_iff,
    CatalogDocument.Provides]

end Catalog

/-! ### A document for examples -/

/-- The customers as they come in. -/
def stagedCustomers : Dataset :=
  { customers with
    id := 1
    schema := "stage"
    strategy := .full
    materialization := .table
    historize? := none
    naturalKeys := []
    handleDeletes := false
    inputs := []
    columns := [Column.plain "CustomerID" "bigint" 1, Column.plain "Name" "varchar(200)" 2] }

/-- The customers as they come in and as they are kept, and what else is declared. -/
def customersDocument (more : List Dataset) (queryNodes : List QueryNode) : CatalogDocument where
  schemas := [⟨"stage", .stage, true, false, true⟩, ⟨"core", .rawcore, true, false, true⟩]
  datasets := stagedCustomers :: customers :: more
  queryNodes := queryNodes

/-- The catalog of the customers, with what is declared besides and with their shadow. -/
def customersCatalog (more : List Dataset) (shadowId : UInt32) : Catalog :=
  { (customersDocument more []).declared with
    datasets := stagedCustomers :: customers :: more ++ [deriveShadow customers shadowId] }

theorem historizes_customers (more : List Dataset) (queryNodes : List QueryNode) :
    (customersDocument more queryNodes).Historizes customers :=
  ⟨List.mem_cons_of_mem _ List.mem_cons_self, rfl, rfl⟩

end Warehouse
