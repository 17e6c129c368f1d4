/-
Module: Warehouse.Proofs.Catalog.Acceptance
Purpose: Which documents are accepted. A document names datasets as inputs and in its query trees;
  it provides those that it declares and the shadows of those that want history. Inputs are looked
  for among all that it provides, but what query nodes read is looked for before there are shadows.
  So a document that provides all that it names is accepted if its query nodes read no shadow that
  is only generated, and if the numbers for shadows do not run out.
Trusted boundary: none
Main exports: CatalogDocument.Queries, CatalogDocument.Resolves, Catalog.Indexes, ofDocument_cases,
  ofDocument_accepts_iff
-/
import Warehouse.Proofs.Catalog.QueryReads
import Warehouse.Proofs.Catalog.ShadowTurns
import Warehouse.Proofs.Graph.Ascending

namespace Warehouse

namespace CatalogDocument

/-- Whether a query node names the dataset of that key. -/
def Queries (doc : CatalogDocument) (key : DatasetKey) : Prop :=
  ∃ id n, doc.declared.queryGraph.node? id = some n ∧ n.dataset? = some key

/-- Every schema is declared, every key is used once, and what is named is provided. -/
structure Resolves (doc : CatalogDocument) : Prop where
  schemas : ∀ d ∈ doc.datasets, ∃ s ∈ doc.schemas, s.name = d.schema
  distinct : (doc.datasets.map Dataset.key).Nodup
  inputs : ∀ d ∈ doc.datasets, ∀ u ∈ d.inputs, doc.Provides u
  queried : ∀ key, doc.Queries key → doc.Provides key

end CatalogDocument

/-! ### Query nodes -/

namespace QueryGraph

variable {g : QueryGraph} {key : DatasetKey}

/-- The references of a graph are those of the nodes that its numbers lead to. -/
theorem mem_references_iff {id : NodeId} :
    (id, key) ∈ g.references ↔ ∃ n, g.node? id = some n ∧ n.dataset? = some key := by
  rw [references, List.mem_filterMap]
  constructor
  · rintro ⟨id', _, named⟩
    obtain ⟨n, node, named⟩ := Option.bind_eq_some_iff.mp named
    obtain ⟨key', reads, same⟩ := Option.bind_eq_some_iff.mp named
    cases same
    exact ⟨n, node, reads⟩
  · rintro ⟨n, node, reads⟩
    refine ⟨id, mem_ids_iff.mpr ⟨n, node⟩, Option.bind_eq_some_iff.mpr ⟨n, node, ?_⟩⟩
    exact Option.bind_eq_some_iff.mpr ⟨key, reads, rfl⟩

/-- What a tree reads is named by a node, even if the root has none. -/
theorem exists_node_of_mem_sourceDatasets {root : NodeId} (source : key ∈ g.sourceDatasets root) :
    ∃ id n, g.node? id = some n ∧ n.dataset? = some key := by
  rw [sourceDatasets, DatasetKey.sort, (List.mergeSort_perm _ _).mem_iff, List.mem_eraseDups,
    List.mem_filterMap] at source
  obtain ⟨id, _, named⟩ := source
  obtain ⟨n, node, reads⟩ := Option.bind_eq_some_iff.mp named
  exact ⟨id, n, node, reads⟩

end QueryGraph

/-! ### The datasets of a catalog -/

namespace Catalog

/-- What the keys of a catalog tell about the datasets that its document provides. -/
structure Indexes (c : Catalog) (doc : CatalogDocument) : Prop where
  provided : ∀ key, key ∈ c.keys ↔ doc.Provides key
  ascending : Ascending c.keys
  length : c.keys.length = c.datasets.length
  found : ∀ key ∈ c.keys, ∃ d, c.get key = .ok d ∧ ∀ e, e ∈ c.datasets ∧ e.key = key ↔ e = d
  missing : ∀ key, key ∉ c.keys → c.get key = .error (.unknownDataset key)
  inputs : ∀ d ∈ c.datasets, ∀ u ∈ d.inputs, u ∈ c.keys

variable {doc : CatalogDocument} {c : Catalog}

/-- A catalog has the keys of its datasets and no others. -/
private theorem mem_keys_iff {key : DatasetKey} : key ∈ c.keys ↔ ∃ d ∈ c.datasets, d.key = key := by
  rw [keys, DatasetKey.sort, (List.mergeSort_perm _ _).mem_iff, List.mem_map]

/-- What a catalog that is accepted holds under a key can be told from the document: what it
provides, each once, with every input among it. -/
theorem indexes_of_ofDocument (accepted : ofDocument doc = .ok c) : c.Indexes doc := by
  have all := syncedAll_of_ofDocument accepted
  have closed := (sound_of_ofDocument accepted).known
  refine ⟨fun key => mem_keys_iff.trans all.provides_iff, DatasetKey.ascending_sort all.distinct,
    ?_, ?_, ?_, ?_⟩
  · rw [keys, DatasetKey.sort, List.length_mergeSort, List.length_map]
  · intro key listed
    obtain ⟨d, member, rfl⟩ := mem_keys_iff.mp listed
    refine ⟨d, get_eq_ok_iff.mpr (all.distinct.get? member), fun e => ⟨fun other => ?_, ?_⟩⟩
    · exact all.distinct.eq other.1 member other.2
    · rintro rfl
      exact ⟨member, rfl⟩
  · intro key absent
    have none : c.get? key = none := by
      rw [← Option.not_isSome_iff_eq_none]
      exact fun there => absent (mem_keys_iff.mpr (contains_iff.mp there))
    rw [get, none]
  · exact fun d member u input => mem_keys_iff.mpr (closed d member u input)

/-! ### Acceptance -/

/-- Nothing is accepted that does not resolve, or whose query nodes read what is only generated. -/
theorem resolves_of_ofDocument (accepted : ofDocument doc = .ok c) :
    doc.Resolves ∧ ∀ key, doc.Queries key → doc.Declares key := by
  obtain ⟨schemas, distinct, queried, _, closed⟩ := ofDocument_eq_ok_iff.mp accepted
  have all := syncedAll_of_ofDocument accepted
  have declares (key : DatasetKey) (named : doc.Queries key) : doc.Declares key := by
    obtain ⟨id, named⟩ := named
    exact queried id key (QueryGraph.mem_references_iff.mpr named)
  refine ⟨⟨schemas, distinct, fun d member u input => ?_,
    fun key named => .inl (declares key named)⟩, declares⟩
  have linked : u ∈ (linkSources doc.declared.queryGraph d).inputs :=
    mem_inputs_linkSources.mpr (.inl input)
  obtain ⟨e, member', reads⟩ :=
    (all.reads_iff u).mpr (.inl ⟨_, CatalogDocument.mem_linked_iff.mpr ⟨d, member, rfl⟩, linked⟩)
  exact all.provides_iff.mp (closed e member' u reads)

/-- A document that resolves gives a catalog once its datasets have got their shadows. -/
theorem ofDocument_of_synced (resolves : doc.Resolves)
    (declares : ∀ key, doc.Queries key → doc.Declares key)
    (synced : doc.linked.syncShadowsOf doc.linked.historizedKeys = .ok c) :
    ofDocument doc = .ok c := by
  have all : SyncedAll doc.linked c doc.linked.historizedKeys :=
    syncedAll_of_syncShadowsOf (CatalogDocument.linked_distinctKeys resolves.distinct)
      (CatalogDocument.linked_schemasDeclared resolves.schemas) synced
  refine ofDocument_eq_ok_iff.mpr ⟨resolves.schemas, resolves.distinct, fun id key named => ?_,
    synced, fun d member u input => ?_⟩
  · exact declares key ⟨id, QueryGraph.mem_references_iff.mp named⟩
  · refine all.provides_iff.mpr ?_
    rcases (all.reads_iff u).mp ⟨d, member, input⟩ with ⟨_, linked, input⟩ | base
    · -- An input that was linked is declared or read by a node of the tree.
      obtain ⟨e, declared, rfl⟩ := CatalogDocument.mem_linked_iff.mp linked
      rcases mem_inputs_linkSources.mp input with input | ⟨root, _, source⟩
      · exact resolves.inputs e declared u input
      · exact .inl (declares u (QueryGraph.exists_node_of_mem_sourceDatasets source))
    · obtain ⟨base, ⟨declared, _⟩, same⟩ := CatalogDocument.mem_historizedKeys_iff.mp base
      exact .inl ⟨base, declared, same⟩

/-- If the numbers run out, this is what is wrong with a document that resolves. -/
theorem ofDocument_eq_error_of_synced (resolves : doc.Resolves)
    (declares : ∀ key, doc.Queries key → doc.Declares key)
    (missed : doc.linked.syncShadowsOf doc.linked.historizedKeys = .error .numbersExhausted) :
    ofDocument doc = .error .numbersExhausted := by
  have empty : DistinctKeys ⟨doc.schemas, [], doc.queryNodes⟩ := List.nodup_nil
  have added : insertAll ⟨doc.schemas, [], doc.queryNodes⟩ doc.datasets = .ok doc.declared :=
    (insertAll_eq_ok_iff empty).mpr ⟨resolves.schemas, resolves.distinct, rfl⟩
  have linked : doc.declared.linkQuerySources = .ok doc.linked :=
    linkQuerySources_eq_ok_iff.mpr ⟨fun id key named =>
      declares key ⟨id, QueryGraph.mem_references_iff.mp named⟩, rfl⟩
  refine bind_eq_error_iff.mpr (.inr ⟨_, added, ?_⟩)
  refine bind_eq_error_iff.mpr (.inr ⟨_, linked, ?_⟩)
  exact bind_eq_error_iff.mpr (.inl missed)

/-- A document that resolves, and whose query nodes read what is declared, is accepted just if there
are numbers enough for its shadows. -/
theorem ofDocument_cases (resolves : doc.Resolves)
    (declares : ∀ key, doc.Queries key → doc.Declares key) :
    doc.NumbersSuffice ∧ (∃ c, ofDocument doc = .ok c) ∨
      ¬ doc.NumbersSuffice ∧ ofDocument doc = .error .numbersExhausted := by
  have schemas : doc.declared.SchemasDeclared := resolves.schemas
  rcases doc.synced_cases schemas resolves.distinct with ⟨suffice, c, synced⟩ | ⟨few, missed⟩
  · exact .inl ⟨suffice, c, ofDocument_of_synced resolves declares synced⟩
  · exact .inr ⟨few, ofDocument_eq_error_of_synced resolves declares missed⟩

/-- A document is accepted just if it resolves, what its query nodes read is declared, not only
generated, and there are numbers enough for its shadows. So among documents with numbers enough, to
resolve is enough just for those of which the second holds. Of a catalog that is accepted the keys
are those that the document provides, each stands for one dataset, and every input is among them. -/
theorem ofDocument_accepts_iff (doc : CatalogDocument) :
    ((∃ c, ofDocument doc = .ok c) ↔
        doc.Resolves ∧ (∀ key, doc.Queries key → doc.Declares key) ∧ doc.NumbersSuffice) ∧
      (doc.NumbersSuffice → (((∃ c, ofDocument doc = .ok c) ↔ doc.Resolves) ↔
        (doc.Resolves → ∀ key, doc.Queries key → doc.Declares key))) ∧
      ∀ c, ofDocument doc = .ok c → c.Indexes doc := by
  have accepts : (∃ c, ofDocument doc = .ok c) ↔
      doc.Resolves ∧ (∀ key, doc.Queries key → doc.Declares key) ∧ doc.NumbersSuffice := by
    constructor
    · rintro ⟨_, accepted⟩
      obtain ⟨resolves, declares⟩ := resolves_of_ofDocument accepted
      exact ⟨resolves, declares, numbersSuffice_of_ofDocument accepted⟩
    · rintro ⟨resolves, declares, suffice⟩
      rcases ofDocument_cases resolves declares with ⟨_, accepted⟩ | ⟨few, _⟩
      · exact accepted
      · exact absurd suffice few
  refine ⟨accepts, fun suffice => ?_, fun _ accepted => indexes_of_ofDocument accepted⟩
  rw [accepts, and_iff_left suffice, and_iff_left_iff_imp]

/-- A report that has the history of the customers as an input. -/
def historyReport : Dataset :=
  { stagedCustomers with
    id := 3
    schema := "core"
    name := "report"
    inputs := [shadowKey customers.key] }

/-- The history that the report reads is not declared; it is there in the end. -/
theorem ofDocument_accepts_historyReport :
    ofDocument (customersDocument [historyReport] []) = .ok (customersCatalog [historyReport] 4) ∧
      (customersCatalog [historyReport] 4).Indexes (customersDocument [historyReport] []) := by
  have accepted : ofDocument (customersDocument [historyReport] []) =
      .ok (customersCatalog [historyReport] 4) := by
    with_unfolding_all rfl
  exact ⟨accepted, (ofDocument_accepts_iff _).2.2 _ accepted⟩

/-- A node that reads the history of the customers. -/
def historyNode : QueryNode := ⟨1, none, .select (some (shadowKey customers.key)) [] none⟩

/-- The same report, if it reads the history by its query tree. -/
def queriedReport : Dataset := { historyReport with inputs := [], queryRoot? := some 1 }

/-- All that the document names is provided, but the history that the node reads is looked for too
early. -/
theorem ofDocument_refuses_queriedReport :
    (customersDocument [queriedReport] [historyNode]).Resolves ∧
      ofDocument (customersDocument [queriedReport] [historyNode]) =
        .error (.unknownSource (shadowKey customers.key) 1) ∧
      ¬ ∀ doc, doc.NumbersSuffice → ((∃ c, ofDocument doc = .ok c) ↔ doc.Resolves) := by
  have refused : ofDocument (customersDocument [queriedReport] [historyNode]) =
      .error (.unknownSource (shadowKey customers.key) 1) := by with_unfolding_all rfl
  have resolves : (customersDocument [queriedReport] [historyNode]).Resolves := by
    refine ⟨by decide, by decide, fun d member u input => .inl ?_, ?_⟩
    · have declared : ∀ d ∈ [stagedCustomers, customers, queriedReport], ∀ u ∈ d.inputs,
          u = stagedCustomers.key := by decide
      exact ⟨stagedCustomers, List.mem_cons_self, (declared d member u input).symm⟩
    · rintro key ⟨id, n, node, reads⟩
      obtain rfl := List.mem_singleton.mp (List.mem_of_find?_eq_some node)
      cases reads
      exact .inr ⟨customers, historizes_customers _ _, rfl⟩
  refine ⟨resolves, refused, fun always => ?_⟩
  obtain ⟨c, accepted⟩ := (always _ (by decide)).mpr resolves
  rw [refused] at accepted
  cases accepted

end Catalog

end Warehouse
