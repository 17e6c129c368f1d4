/-
Module: Warehouse.Proofs.Run.Manifest
Purpose: The manifest of a catalog is complete, in levels, and there exactly if the catalog can be
  run. What it calls datasets and sources by are texts; as long as no two of them are called alike,
  its graph is the graph of the catalog with the sources put below it, and the sources need nothing.
Trusted boundary: none
Main exports: Catalog.DistinctIds, mem_needs_manifestGraph, mem_manifestNodes_iff,
  acyclic_manifestGraph_iff, Manifest.Lists, manifest_lists_catalog
-/
import Mathlib.Tactic.Tauto
import Warehouse.Proofs.Catalog.Stages
import Warehouse.Proofs.Graph.Levels
import Warehouse.Proofs.Run.Order
import Warehouse.Run.Manifest

namespace Warehouse

open DependencyGraph (Acyclic NeedsWithin Levelled)

/-- Whether a dataset of the catalog is loaded from the outside table. -/
def Catalog.HasSource (c : Catalog) (s : SourceObject) : Prop := ∃ d ∈ c.datasets, s ∈ d.sources

/-- Whether a node is that of a dataset or of a source. -/
def Catalog.HasNode (c : Catalog) (n : ManifestNode) : Prop :=
  (∃ d ∈ c.datasets, n = ManifestNode.ofDataset c d) ∨ ∃ s, c.HasSource s ∧
    n = ManifestNode.ofSource s

/-- No two datasets or sources of a catalog are called alike in its manifest. -/
structure Catalog.DistinctIds (c : Catalog) : Prop where
  datasets : ∀ d ∈ c.datasets, ∀ e ∈ c.datasets, d.key.display = e.key.display → d.key = e.key
  sources : ∀ s t, c.HasSource s → c.HasSource t →
    ManifestNode.sourceId s = ManifestNode.sourceId t → s = t
  apart : ∀ d ∈ c.datasets, ∀ s, c.HasSource s → d.key.display ≠ ManifestNode.sourceId s

/-- What the manifest of a catalog is: each dataset and each source is one node; each node stands
once in the levels, which the nodes follow; and it stands one level after the last of those that it
depends on, or in the first level if it depends on none. -/
structure Manifest.Lists (c : Catalog) (m : Manifest) : Prop where
  concatenated : m.nodes.map ManifestNode.id = m.levels.flatten
  once : m.levels.flatten.Nodup
  all : ∀ n, n ∈ m.nodes ↔ c.HasNode n
  before : ∀ n ∈ m.nodes, ∀ dep ∈ n.deps,
    (∃ u ∈ m.nodes, u.id = dep) ∧ levelOf m.levels dep < levelOf m.levels n.id
  next : ∀ n ∈ m.nodes, if n.deps = [] then levelOf m.levels n.id = 0
    else ∃ dep ∈ n.deps, levelOf m.levels n.id = levelOf m.levels dep + 1

/-! ### What depends on what

The manifest speaks of datasets and of the objects outside that they come from, by their displayed
names. Its graph of names is built dataset by dataset. -/

section

variable {c : Catalog} {a b : String}

/-- A dataset depends on its inputs and on its source objects. -/
theorem mem_depsOf {d : Dataset} :
    b ∈ ManifestNode.depsOf d ↔
      (∃ u ∈ d.inputs, u.display = b) ∨ ∃ s ∈ d.sources, ManifestNode.sourceId s = b := by
  rw [ManifestNode.depsOf, mem_ascending, List.mem_append, List.mem_map, List.mem_map]

/-- What a dataset needs in the graph. -/
theorem mem_needs_addManifestDependencies {g : DependencyGraph String} {d : Dataset} :
    (a, b) ∈ (addManifestDependencies g d).needs ↔
      (a, b) ∈ g.needs ∨ a = d.key.display ∧ b ∈ ManifestNode.depsOf d := by
  have sources (ss : List SourceObject) (g : DependencyGraph String) :
      (ss.foldl (fun g s => g.addNode (ManifestNode.sourceId s)) g).needs = g.needs := by
    induction ss generalizing g with
    | nil => rfl
    | cons s rest ih =>
      rw [List.foldl_cons, ih]
      exact DependencyGraph.needs_addNode g _
  simp only [addManifestDependencies]
  rw [DependencyGraph.mem_needs_addAll, DependencyGraph.needs_addNode, sources]

/-- The nodes that a dataset brings. -/
theorem mem_nodes_addManifestDependencies {g : DependencyGraph String} {d : Dataset} :
    a ∈ (addManifestDependencies g d).nodes ↔
      a ∈ g.nodes ∨ a = d.key.display ∨ a ∈ ManifestNode.depsOf d := by
  have sources (ss : List SourceObject) (g : DependencyGraph String) :
      a ∈ (ss.foldl (fun g s => g.addNode (ManifestNode.sourceId s)) g).nodes ↔
        a ∈ g.nodes ∨ ∃ s ∈ ss, ManifestNode.sourceId s = a := by
    induction ss generalizing g with
    | nil => simp
    | cons s rest ih =>
      rw [List.foldl_cons, ih, DependencyGraph.mem_nodes_addNode_iff, or_assoc,
        List.exists_mem_cons_iff, eq_comm (a := a)]
  simp only [addManifestDependencies]
  rw [DependencyGraph.mem_nodes_addAll (DependencyGraph.mem_nodes_addNode _ _),
    DependencyGraph.mem_nodes_addNode_iff, sources, or_assoc, or_assoc]
  constructor
  · rintro (old | ⟨s, source, rfl⟩ | here)
    · exact .inl old
    · exact .inr (.inr (mem_depsOf.mpr (.inr ⟨s, source, rfl⟩)))
    · exact .inr here
  · rintro (old | here)
    · exact .inl old
    · exact .inr (.inr here)

/-- The dependencies of the graph are those of the datasets, by name. -/
theorem mem_needs_manifestGraph :
    (a, b) ∈ (manifestGraph c).needs ↔ ∃ d ∈ c.datasets, d.key.display = a ∧
    b ∈ ManifestNode.depsOf d := by
  have general (ds : List Dataset) (g : DependencyGraph String) :
      (a, b) ∈ (ds.foldl addManifestDependencies g).needs ↔
        (a, b) ∈ g.needs ∨ ∃ d ∈ ds, d.key.display = a ∧ b ∈ ManifestNode.depsOf d := by
    induction ds generalizing g with
    | nil => simp
    | cons d rest ih =>
      rw [List.foldl_cons, ih, mem_needs_addManifestDependencies, or_assoc,
        List.exists_mem_cons_iff, eq_comm (a := a)]
  rw [manifestGraph, general]
  exact or_iff_right List.not_mem_nil

/-- The nodes of the graph are the datasets and what they depend on, by name. -/
theorem mem_nodes_manifestGraph :
    a ∈ (manifestGraph c).nodes ↔ ∃ d ∈ c.datasets, a = d.key.display ∨
    a ∈ ManifestNode.depsOf d := by
  have general (ds : List Dataset) (g : DependencyGraph String) :
      a ∈ (ds.foldl addManifestDependencies g).nodes ↔
        a ∈ g.nodes ∨ ∃ d ∈ ds, a = d.key.display ∨ a ∈ ManifestNode.depsOf d := by
    induction ds generalizing g with
    | nil => simp
    | cons d rest ih =>
      rw [List.foldl_cons, ih, mem_nodes_addManifestDependencies, or_assoc,
        List.exists_mem_cons_iff]
  rw [manifestGraph, general]
  exact or_iff_right List.not_mem_nil

end

/-! ### The nodes by name

Nodes are added for each dataset and for each source object that has none yet. So every node is made
of a dataset or of a source object, and there is one for each name. -/

section

variable {c : Catalog} {nodes : List ManifestNode} {n : ManifestNode} {name : String}

/-- A source object adds its own node or none. -/
theorem mem_addSourceNode {s : SourceObject} (there : n ∈ addSourceNode nodes s) :
    n ∈ nodes ∨ n = ManifestNode.ofSource s := by
  rw [addSourceNode] at there
  split at there
  · exact .inl there
  · rcases List.mem_append.mp there with old | new
    · exact .inl old
    · exact .inr (List.mem_singleton.mp new)

private theorem mem_ids_addSourceNode {s : SourceObject} :
    name ∈ (addSourceNode nodes s).map ManifestNode.id ↔
      name ∈ nodes.map ManifestNode.id ∨ name = ManifestNode.sourceId s := by
  rw [addSourceNode]
  split
  · next known =>
    obtain ⟨n, old, same⟩ := List.any_eq_true.mp known
    refine (or_iff_left_of_imp ?_).symm
    rintro rfl
    exact List.mem_map.mpr ⟨n, old, of_decide_eq_true same⟩
  · rw [List.map_append, List.mem_append, List.map_singleton, List.mem_singleton]
    rfl

/-- Source objects add nodes of their own only. -/
theorem mem_addSourceNodes {ss : List SourceObject} (there : n ∈ ss.foldl addSourceNode nodes) :
    n ∈ nodes ∨ ∃ s ∈ ss, n = ManifestNode.ofSource s := by
  induction ss generalizing nodes with
  | nil => exact .inl there
  | cons s rest ih =>
    rw [List.exists_mem_cons_iff, ← or_assoc]
    exact (ih there).imp_left mem_addSourceNode

private theorem mem_ids_addSourceNodes {ss : List SourceObject} :
    name ∈ (ss.foldl addSourceNode nodes).map ManifestNode.id ↔
      name ∈ nodes.map ManifestNode.id ∨ ∃ s ∈ ss, name = ManifestNode.sourceId s := by
  induction ss generalizing nodes with
  | nil => simp
  | cons s rest ih =>
    rw [List.foldl_cons, ih, mem_ids_addSourceNode, or_assoc, List.exists_mem_cons_iff]

/-- A dataset adds a node of its own and those of its source objects. -/
theorem mem_addDatasetNodes {d : Dataset} (there : n ∈ addDatasetNodes c nodes d) :
    n ∈ nodes ∨ (∃ s ∈ d.sources, n = ManifestNode.ofSource s) ∨
    n = ManifestNode.ofDataset c d := by
  rcases List.mem_append.mp there with before | new
  · rw [← or_assoc]
    exact .inl (mem_addSourceNodes (List.mem_filter.mp before).1)
  · exact .inr (.inr (List.mem_singleton.mp new))

private theorem mem_ids_addDatasetNodes {d : Dataset} :
    name ∈ (addDatasetNodes c nodes d).map ManifestNode.id ↔
      name ∈ nodes.map ManifestNode.id ∨ (∃ s ∈ d.sources, name = ManifestNode.sourceId s) ∨
        name = d.key.display := by
  rw [← or_assoc, ← mem_ids_addSourceNodes]
  have split : name ∈ (addDatasetNodes c nodes d).map ManifestNode.id ↔
      name ∈ (d.sources.foldl addSourceNode nodes).map ManifestNode.id ∧ name ≠ d.key.display ∨
        name = d.key.display := by
    simp only [addDatasetNodes, List.map_append, List.mem_append, List.mem_map, List.mem_filter,
      List.mem_singleton, decide_eq_true_eq, exists_eq_left]
    constructor
    · rintro (⟨n, ⟨there, other⟩, rfl⟩ | rfl)
      · exact .inl ⟨⟨n, there, rfl⟩, other⟩
      · exact .inr rfl
    · rintro (⟨⟨n, there, rfl⟩, other⟩ | rfl)
      · exact .inl ⟨n, ⟨there, other⟩, rfl⟩
      · exact .inr rfl
  rw [split]
  tauto

/-- What is listed by name is a node of a dataset or of a source. -/
theorem hasNode_of_mem_manifestNodes (there : n ∈ manifestNodes c) : c.HasNode n := by
  have general (ds : List Dataset) (nodes : List ManifestNode)
    (there : n ∈ ds.foldl (addDatasetNodes c) nodes) :
      n ∈ nodes ∨ (∃ d ∈ ds, n = ManifestNode.ofDataset c d) ∨
        ∃ d ∈ ds, ∃ s ∈ d.sources, n = ManifestNode.ofSource s := by
    induction ds generalizing nodes with
    | nil => exact .inl there
    | cons d rest ih =>
      rw [List.exists_mem_cons_iff, List.exists_mem_cons_iff]
      rcases ih _ there with before | later | later
      · rcases mem_addDatasetNodes before with old | source | here
        · exact .inl old
        · exact .inr (.inr (.inl source))
        · exact .inr (.inl (.inl here))
      · exact .inr (.inl (.inr later))
      · exact .inr (.inr (.inr later))
  rcases general _ _ there with none | dataset | ⟨d, member, s, source, rfl⟩
  · cases none
  · exact .inl dataset
  · exact .inr ⟨s, ⟨d, member, source⟩, rfl⟩

/-- Every dataset and every source has a node by its name. -/
theorem mem_ids_manifestNodes :
    name ∈ (manifestNodes c).map ManifestNode.id ↔
      ∃ d ∈ c.datasets, (∃ s ∈ d.sources, name = ManifestNode.sourceId s) ∨
        name = d.key.display := by
  have general (ds : List Dataset) (nodes : List ManifestNode) :
      name ∈ (ds.foldl (addDatasetNodes c) nodes).map ManifestNode.id ↔
        name ∈ nodes.map ManifestNode.id ∨
          ∃ d ∈ ds, (∃ s ∈ d.sources, name = ManifestNode.sourceId s) ∨ name = d.key.display := by
    induction ds generalizing nodes with
    | nil => simp
    | cons d rest ih =>
      rw [List.foldl_cons, ih, mem_ids_addDatasetNodes, or_assoc, List.exists_mem_cons_iff]
  rw [manifestNodes, general]
  exact or_iff_right List.not_mem_nil

/-- Nodes of one catalog that are called alike are one. -/
theorem Catalog.DistinctIds.eq (distinct : c.DistinctIds) (keys : c.DistinctKeys)
    {n n' : ManifestNode} (is : c.HasNode n) (is' : c.HasNode n') (same : n.id = n'.id) :
    n = n' := by
  rcases is with ⟨d, member, rfl⟩ | ⟨s, source, rfl⟩ <;> rcases is' with
    ⟨e, member', rfl⟩ | ⟨t, source', rfl⟩
  · rw [keys.eq member member' (distinct.datasets d member e member' same)]
  · exact absurd same (distinct.apart d member t source')
  · exact absurd same.symm (distinct.apart e member' s source)
  · rw [distinct.sources s t source source' same]

/-- Under distinct names, the nodes by name are those of the datasets and of the sources. -/
theorem mem_manifestNodes_iff (distinct : c.DistinctIds) (keys : c.DistinctKeys) :
    n ∈ manifestNodes c ↔ c.HasNode n := by
  refine ⟨hasNode_of_mem_manifestNodes, fun is => ?_⟩
  have named : n.id ∈ (manifestNodes c).map ManifestNode.id := by
    apply mem_ids_manifestNodes.mpr
    rcases is with ⟨d, member, rfl⟩ | ⟨s, ⟨d, member, source⟩, rfl⟩
    · exact ⟨d, member, .inr rfl⟩
    · exact ⟨d, member, .inl ⟨s, source, rfl⟩⟩
  obtain ⟨n', there, same⟩ := List.mem_map.mp named
  rw [← distinct.eq keys (hasNode_of_mem_manifestNodes there) is same]
  exact there

/-- What a node depends on is what its name needs in the graph. -/
theorem mem_deps_iff (distinct : c.DistinctIds) (keys : c.DistinctKeys) (is : c.HasNode n) :
    name ∈ (manifestGraph c).prerequisites n.id ↔ name ∈ n.deps := by
  rw [DependencyGraph.mem_prerequisites, mem_needs_manifestGraph]
  rcases is with ⟨d, member, rfl⟩ | ⟨s, source, rfl⟩
  · constructor
    · rintro ⟨e, member', same, need⟩
      rw [keys.eq member' member (distinct.datasets e member' d member same)] at need
      exact need
    · exact fun need => ⟨d, member, rfl, need⟩
  · constructor
    · rintro ⟨e, member', same, _⟩
      exact absurd same (distinct.apart e member' s source)
    · exact fun need => absurd need List.not_mem_nil

end

/-! ### The graph of texts and the graph of keys -/

section

variable {c : Catalog}

/-- In a closed catalog, the nodes of the graph are the names of the nodes. -/
theorem mem_nodes_manifestGraph_iff
    (known : ∀ d ∈ c.datasets, ∀ u ∈ d.inputs, ∃ e ∈ c.datasets, e.key = u) {name : String} :
    name ∈ (manifestGraph c).nodes ↔ name ∈ (manifestNodes c).map ManifestNode.id := by
  rw [mem_nodes_manifestGraph, mem_ids_manifestNodes]
  constructor
  · rintro ⟨d, member, rfl | dep⟩
    · exact ⟨d, member, .inr rfl⟩
    · rcases mem_depsOf.mp dep with ⟨u, input, rfl⟩ | ⟨s, source, rfl⟩
      · obtain ⟨e, member', rfl⟩ := known d member u input
        exact ⟨e, member', .inr rfl⟩
      · exact ⟨d, member, .inl ⟨s, source, rfl⟩⟩
  · rintro ⟨d, member, ⟨s, source, rfl⟩ | rfl⟩
    · exact ⟨d, member, .inr (mem_depsOf.mpr (.inr ⟨s, source, rfl⟩))⟩
    · exact ⟨d, member, .inl rfl⟩

/-- A run of everything loads the datasets of the catalog. -/
theorem mem_runMembers_nil_iff {k : DatasetKey} : k ∈ runMembers c [] ↔
    ∃ d ∈ c.datasets, d.key = k := by
  constructor
  · intro member
    have keys {k : DatasetKey} : k ∈ c.keys ↔ ∃ d ∈ c.datasets, d.key = k := by
      rw [Catalog.keys, DatasetKey.sort, (List.mergeSort_perm _ _).mem_iff, List.mem_map]
    rcases mem_withShadows.mp member with there | ⟨b, _, s, kept, rfl⟩
    · rw [if_pos List.isEmpty_nil] at there
      exact keys.mp there
    · exact ⟨s, (Catalog.of_shadowOf? kept).1, rfl⟩
  · rintro ⟨d, member, rfl⟩
    exact mem_runMembers_nil member

/-- Under distinct names, a chain of needs that ends at the name of a dataset is a chain of
datasets. -/
theorem exists_chain_of_display (distinct : c.DistinctIds)
    (known : ∀ d ∈ c.datasets, ∀ u ∈ d.inputs, ∃ e ∈ c.datasets, e.key = u) {a b : String}
    {members : List String} (chain : Relation.TransGen ((manifestGraph c).NeedsWithin members) a b)
    {e : Dataset} (member : e ∈ c.datasets) (last : b = e.key.display) :
    ∃ d ∈ c.datasets, d.key.display = a ∧
      Relation.TransGen (c.dependencies.NeedsWithin (runMembers c [])) d.key e.key := by
  -- A need that a dataset meets is an input, since no source is called like it.
  have step {a : String} {e : Dataset} (member : e ∈ c.datasets)
      (need : (manifestGraph c).NeedsWithin members a e.key.display) :
      ∃ d ∈ c.datasets, d.key.display = a ∧
        c.dependencies.NeedsWithin (runMembers c []) d.key e.key := by
    obtain ⟨d, member', rfl, dep⟩ := mem_needs_manifestGraph.mp need.2.2
    rcases mem_depsOf.mp dep with ⟨u, input, same⟩ | ⟨s, source, same⟩
    · obtain ⟨e', there, rfl⟩ := known d member' u input
      rw [distinct.datasets e' there e member same] at input
      exact ⟨d, member', rfl, mem_runMembers_nil member', mem_runMembers_nil member,
        Catalog.mem_needs_dependencies.mpr ⟨d, member', rfl, input⟩⟩
    · exact absurd same.symm (distinct.apart e member s ⟨d, member', source⟩)
  induction chain using Relation.TransGen.head_induction_on with
  | single need =>
    subst last
    obtain ⟨d, member', named, need'⟩ := step member need
    exact ⟨d, member', named, .single need'⟩
  | head need _ ih =>
    obtain ⟨d, member', rfl, rest⟩ := ih
    obtain ⟨d', member'', named, need'⟩ := step member' need
    exact ⟨d', member'', named, .head need' rest⟩

/-- Under distinct names, the graph of the manifest has a circle exactly if the datasets have
one. -/
theorem acyclic_manifestGraph_iff (distinct : c.DistinctIds)
    (known : ∀ d ∈ c.datasets, ∀ u ∈ d.inputs, ∃ e ∈ c.datasets, e.key = u) :
    (manifestGraph c).Acyclic (manifestGraph c).nodes ↔
      c.dependencies.Acyclic (runMembers c []) := by
  constructor
  · intro acyclic k circle
    apply acyclic k.display
    refine circle.lift DatasetKey.display fun a b need => ?_
    obtain ⟨d, member, rfl, input⟩ := Catalog.mem_needs_dependencies.mp need.2.2
    have need' : (d.key.display, b.display) ∈ (manifestGraph c).needs :=
      mem_needs_manifestGraph.mpr ⟨d, member, rfl, mem_depsOf.mpr (.inl ⟨b, input, rfl⟩)⟩
    obtain ⟨here, there⟩ := (manifestGraph c).ends_mem _ need'
    exact ⟨here, there, need'⟩
  · intro acyclic a circle
    obtain ⟨b, need, _⟩ := Relation.TransGen.head'_iff.mp circle
    obtain ⟨e, member, named, _⟩ := mem_needs_manifestGraph.mp need.2.2
    obtain ⟨d, member', named', chain⟩ :=
      exists_chain_of_display distinct known circle member named.symm
    rw [distinct.datasets d member' e member (named'.trans named.symm)] at chain
    exact acyclic _ chain

/-- A run of everything has an order exactly if the datasets have no circle. -/
theorem exists_runOrder_nil_iff :
    (∃ order, runOrder c [] = .ok order) ↔ c.dependencies.Acyclic (runMembers c []) := by
  have nodes : runMembers c [] ⊆ c.dependencies.nodes := by
    intro k member
    obtain ⟨d, there, rfl⟩ := mem_runMembers_nil_iff.mp member
    exact Catalog.mem_nodes_dependencies.mpr ⟨d, there, .inl rfl⟩
  rw [← DependencyGraph.exists_orderOf_iff nodes]
  constructor
  · rintro ⟨order, found⟩
    obtain ⟨keys, ordered, _⟩ := bind_eq_ok_iff.mp found
    exact ⟨keys, mapError_eq_ok_iff.mp ordered⟩
  · rintro ⟨keys, ordered⟩
    have gets : ∀ k ∈ keys, ∃ d, (c.get k).mapError OrderError.catalog = .ok d := by
      intro k there
      obtain ⟨e, member, rfl⟩ :=
        mem_runMembers_nil_iff.mp (((DependencyGraph.orderOf_ok ordered).all k).mp there)
      obtain ⟨d, found⟩ := Option.isSome_iff_exists.mp (Catalog.contains_iff.mpr ⟨e, member, rfl⟩)
      exact ⟨d, mapError_eq_ok_iff.mpr (Catalog.get_eq_ok_iff.mpr found)⟩
    obtain ⟨order, got⟩ := exists_mapM_eq_ok _ keys gets
    exact ⟨order, bind_eq_ok_iff.mpr ⟨keys, mapError_eq_ok_iff.mpr ordered, got⟩⟩

end

/-! ### The manifest -/

section

variable {c : Catalog}

/-- The nodes that are looked up by the names of the levels. -/
theorem nodes_of_ids {nodes : List ManifestNode} {ids : List String}
    (sub : ids ⊆ nodes.map ManifestNode.id) :
    (ids.filterMap fun id => nodes.find? fun n => n.id = id).map ManifestNode.id = ids ∧
      ∀ n ∈ ids.filterMap fun id => nodes.find? fun n => n.id = id, n ∈ nodes := by
  induction ids with
  | nil => exact ⟨rfl, fun _ none => absurd none List.not_mem_nil⟩
  | cons id rest ih =>
    obtain ⟨here, later⟩ := List.cons_subset.mp sub
    obtain ⟨names, from_nodes⟩ := ih later
    obtain ⟨n, there, rfl⟩ := List.mem_map.mp here
    obtain ⟨n', found⟩ := Option.isSome_iff_exists.mp
      (List.find?_isSome (p := fun m => decide (m.id = n.id)).mpr ⟨n, there, decide_eq_true rfl⟩)
    have same : n'.id = n.id := by simpa using List.find?_some found
    have split : (n.id :: rest).filterMap (fun id => nodes.find? fun m => m.id = id) =
        n' :: rest.filterMap fun id => nodes.find? fun m => m.id = id :=
      List.filterMap_cons_some found
    rw [split, List.map_cons, names, same]
    exact ⟨rfl, List.forall_mem_cons.mpr ⟨List.mem_of_find?_eq_some found, from_nodes⟩⟩

/-- All nodes are looked up if the names are those of all nodes, since no two nodes have one
name. -/
theorem mem_nodes_of_ids_iff (distinct : c.DistinctIds) (keys : c.DistinctKeys) {ids : List String}
    (names : ∀ name, name ∈ ids ↔ name ∈ (manifestNodes c).map ManifestNode.id) (n : ManifestNode) :
    n ∈ ids.filterMap (fun id => (manifestNodes c).find? fun n => n.id = id) ↔ c.HasNode n := by
  obtain ⟨same, from_nodes⟩ := nodes_of_ids fun name => (names name).mp
  rw [← mem_manifestNodes_iff distinct keys]
  refine ⟨from_nodes n, fun there => ?_⟩
  have named : n.id ∈ ids := (names n.id).mpr (List.mem_map_of_mem there)
  rw [← same] at named
  obtain ⟨n', there', equal⟩ := List.mem_map.mp named
  rw [← distinct.eq keys (hasNode_of_mem_manifestNodes (from_nodes n' there'))
    (hasNode_of_mem_manifestNodes there) equal]
  exact there'

/-- What the levels of the graph list. -/
theorem lists_of_levelled {m : Manifest} (distinct : c.DistinctIds) (sound : c.Sound)
    (levelled : (manifestGraph c).Levelled (manifestGraph c).nodes m.levels)
    (nodes : m.nodes =
      m.levels.flatten.filterMap fun id => (manifestNodes c).find? fun n => n.id = id) :
    m.Lists c := by
  have names : ∀ name, name ∈ m.levels.flatten ↔ name ∈ (manifestNodes c).map ManifestNode.id := by
    intro name
    rw [levelled.all, mem_nodes_manifestGraph_iff sound.known]
  have sub : m.levels.flatten ⊆ (manifestNodes c).map ManifestNode.id := fun name => (names name).mp
  have ids : m.nodes.map ManifestNode.id = m.levels.flatten := by
    rw [nodes]
    exact (nodes_of_ids sub).1
  have all : ∀ n, n ∈ m.nodes ↔ c.HasNode n := by
    rw [nodes]
    exact mem_nodes_of_ids_iff distinct sound.distinct names
  have node : ∀ n ∈ m.nodes, n.id ∈ (manifestGraph c).nodes := by
    intro n there
    rw [← levelled.all, ← ids]
    exact List.mem_map_of_mem there
  have deps : ∀ n ∈ m.nodes, ∀ dep, dep ∈ (manifestGraph c).prerequisites n.id ↔ dep ∈ n.deps :=
    fun n there dep => mem_deps_iff distinct sound.distinct ((all n).mp there)
  have ends {a u : String} (need : u ∈ (manifestGraph c).prerequisites a) :
      u ∈ (manifestGraph c).nodes :=
    ((manifestGraph c).ends_mem _ (DependencyGraph.mem_prerequisites.mp need)).2
  refine ⟨ids, levelled.once, all, fun n there dep named => ?_, fun n there => ?_⟩
  · have need := (deps n there dep).mpr named
    refine ⟨?_, levelled.before n.id (node n there) dep need (ends need)⟩
    have listed := (levelled.all dep).mpr (ends need)
    rw [← ids] at listed
    exact List.mem_map.mp listed
  · split
    · next none =>
      refine (levelled.levelOf_eq_zero_iff (node n there)).mpr fun u need => ?_
      have dep := (deps n there u).mp need
      rw [none] at dep
      cases dep
    · next some =>
      obtain ⟨dep, rest, split⟩ := List.exists_cons_of_ne_nil some
      have need := (deps n there dep).mpr (split ▸ List.mem_cons_self)
      obtain ⟨u, need', _, next⟩ := levelled.exists_next (node n there) need (ends need)
      exact ⟨u, (deps n there u).mp need', next⟩

end

/-- The manifest of a catalog in which no two datasets or sources are called alike. There is one
exactly if a run of everything has an order, and it lists the datasets and the sources, each once,
one level after the last of those that they depend on. -/
theorem manifest_lists_catalog {doc : CatalogDocument} {c : Catalog}
    (accepted : Catalog.ofDocument doc = .ok c) (distinct : c.DistinctIds)
    (profile targetSystem : String) (generatedAt : Timestamp) :
    ((∃ m, Manifest.ofCatalog c profile targetSystem generatedAt = .ok m) ↔
      ∃ order, runOrder c [] = .ok order) ∧
    ∀ m, Manifest.ofCatalog c profile targetSystem generatedAt = .ok m → m.Lists c := by
  have sound := Catalog.sound_of_ofDocument accepted
  have self : (manifestGraph c).nodes ⊆ (manifestGraph c).nodes := List.Subset.refl _
  constructor
  · rw [exists_runOrder_nil_iff, ← acyclic_manifestGraph_iff distinct sound.known,
      ← DependencyGraph.exists_levelsOf_iff self]
    constructor
    · rintro ⟨m, built⟩
      obtain ⟨levels, found, _⟩ := bind_eq_ok_iff.mp built
      exact ⟨levels, found⟩
    · rintro ⟨levels, found⟩
      exact ⟨_, bind_eq_ok_iff.mpr ⟨levels, found, rfl⟩⟩
  · intro m built
    obtain ⟨levels, found, result⟩ := bind_eq_ok_iff.mp built
    cases result
    exact lists_of_levelled distinct sound (DependencyGraph.levelled_of_levelsOf self found) rfl

/-- The letters of the customers, as another system keeps them. -/
def letterTable : SourceObject := ⟨"crm", some "dbo", "letters"⟩

/-- The letters, with the customers to whom they were written. -/
def sentLetters : Dataset :=
  { stagedCustomers with
    id := 3
    name := "letters"
    inputs := [⟨"core", "customers"⟩]
    sources := [letterTable] }

private theorem distinctIds_letters : (customersCatalog [sentLetters] 4).DistinctIds := by
  have source (s : SourceObject) (has : (customersCatalog [sentLetters] 4).HasSource s) :
      s = letterTable := by
    obtain ⟨d, member, source⟩ := has
    have all : ∀ d ∈ (customersCatalog [sentLetters] 4).datasets,
      d.sources ⊆ [letterTable] := by decide
    exact List.mem_singleton.mp (all d member source)
  have one (s t : SourceObject) (has : (customersCatalog [sentLetters] 4).HasSource s)
      (has' : (customersCatalog [sentLetters] 4).HasSource t) : s = t :=
    (source s has).trans (source t has').symm
  refine ⟨by decide +kernel, fun s t has has' _ => one s t has has', fun d member s has => ?_⟩
  rw [source s has]
  have apart : ∀ d ∈ (customersCatalog [sentLetters] 4).datasets,
      d.key.display ≠ ManifestNode.sourceId letterTable := by decide +kernel
  exact apart d member

/-- The manifest lists the customers, their history and the letters that are sent to them. -/
theorem manifest_lists_letters :
    Catalog.ofDocument (customersDocument [sentLetters] []) =
      .ok (customersCatalog [sentLetters] 4) ∧
    (customersCatalog [sentLetters] 4).DistinctIds ∧
    ∀ generatedAt,
      ((∃ m, Manifest.ofCatalog (customersCatalog [sentLetters] 4) "dev" "lake"
        generatedAt = .ok m) ↔
        ∃ order, runOrder (customersCatalog [sentLetters] 4) [] = .ok order) ∧
      ∀ m, Manifest.ofCatalog (customersCatalog [sentLetters] 4) "dev" "lake" generatedAt = .ok m →
        m.Lists (customersCatalog [sentLetters] 4) := by
  have accepted :
      Catalog.ofDocument (customersDocument [sentLetters] []) =
        .ok (customersCatalog [sentLetters] 4) := by with_unfolding_all rfl
  exact ⟨accepted, distinctIds_letters,
    manifest_lists_catalog accepted distinctIds_letters "dev" "lake"⟩

end Warehouse
