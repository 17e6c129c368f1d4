/-
Module: Warehouse.Proofs.Run.Order
Purpose: What a run loads and when. With roots it loads what they read, directly or not, and the
  shadows of that; without, the whole catalog. Each dataset comes after those of its inputs that the
  run loads.
Trusted boundary: none
Main exports: Catalog.Reads, Catalog.Reached, mem_needs_dependencies, Catalog.Selected,
  mem_runMembers_iff, RunsInOrder, runsInOrder_of_runOrder, RunsInOrder.before
-/
import Warehouse.Proofs.Catalog.Document
import Warehouse.Proofs.Graph.Order
import Warehouse.Run.Order

namespace Warehouse

namespace Catalog

/-- Whether the dataset of key `k` has `u` among its inputs. -/
def Reads (c : Catalog) (k u : DatasetKey) : Prop := ∃ d ∈ c.datasets, d.key = k ∧ u ∈ d.inputs

/-- Whether `k` is a root or is read, directly or not, for one. -/
def Reached (c : Catalog) (roots : List DatasetKey) (k : DatasetKey) : Prop :=
  ∃ r ∈ roots, Relation.ReflTransGen c.Reads r k

/-- Whether `k` is reached or the shadow of what is. -/
def Selected (c : Catalog) (roots : List DatasetKey) (k : DatasetKey) : Prop :=
  c.Reached roots k ∨ ∃ b s, c.Reached roots b ∧ c.shadowOf? b = some s ∧ s.key = k

variable {c : Catalog} {roots : List DatasetKey}

/-- What a dataset reads is reached if the dataset is. -/
theorem Reached.read {k u : DatasetKey} (reached : c.Reached roots k) (reads : c.Reads k u) :
    c.Reached roots u := by
  obtain ⟨r, root, chain⟩ := reached
  exact ⟨r, root, chain.tail reads⟩

/-- What is kept as a shadow of a dataset is a dataset that claims to be its history. -/
theorem of_shadowOf? {b : DatasetKey} {s : Dataset} (kept : c.shadowOf? b = some s) :
    s ∈ c.datasets ∧ s.histOf? = some b := by
  rw [shadowOf?] at kept
  exact ⟨List.mem_of_find?_eq_some kept, by simpa using List.find?_some kept⟩

/-! ### The graph of a catalog

Each dataset is a node, and it needs its inputs. An input that is no dataset is a node too, though
nothing is loaded for it. -/

/-- A dataset needs just what it reads. -/
theorem mem_needs_dependencies {k u : DatasetKey} : (k, u) ∈ c.dependencies.needs ↔
    c.Reads k u := by
  have general (ds : List Dataset) (g : DependencyGraph DatasetKey) :
      (k, u) ∈ (ds.foldl (fun g d => d.inputs.foldl (fun g u => g.addDependency d.key u)
        (g.addNode d.key)) g).needs ↔ (k, u) ∈ g.needs ∨ ∃ d ∈ ds, d.key = k ∧ u ∈ d.inputs := by
    induction ds generalizing g with
    | nil => simp
    | cons d rest ih =>
      rw [List.foldl_cons, ih, DependencyGraph.mem_needs_addAll,
        DependencyGraph.needs_addNode, or_assoc, List.exists_mem_cons_iff, eq_comm (a := k)]
  rw [dependencies, general]
  exact or_iff_right List.not_mem_nil

/-- The nodes are the datasets and what they read. -/
theorem mem_nodes_dependencies {k : DatasetKey} :
    k ∈ c.dependencies.nodes ↔ ∃ d ∈ c.datasets, k = d.key ∨ k ∈ d.inputs := by
  have general (ds : List Dataset) (g : DependencyGraph DatasetKey) :
      k ∈ (ds.foldl (fun g d => d.inputs.foldl (fun g u => g.addDependency d.key u)
        (g.addNode d.key)) g).nodes ↔ k ∈ g.nodes ∨ ∃ d ∈ ds, k = d.key ∨ k ∈ d.inputs := by
    induction ds generalizing g with
    | nil => simp
    | cons d rest ih =>
      rw [List.foldl_cons, ih,
        DependencyGraph.mem_nodes_addAll (DependencyGraph.mem_nodes_addNode g d.key),
        DependencyGraph.mem_nodes_addNode_iff, or_assoc, or_assoc,
        List.exists_mem_cons_iff, or_assoc]
  rw [dependencies, general]
  exact or_iff_right List.not_mem_nil

end Catalog

/-! ### What a run loads -/

section

variable {c : Catalog} {roots : List DatasetKey} {k : DatasetKey}

/-- Shadows are loaded with the datasets whose history they keep. -/
theorem mem_withShadows {keys : List DatasetKey} :
    k ∈ c.withShadows keys ↔ k ∈ keys ∨ ∃ b ∈ keys, ∃ s, c.shadowOf? b = some s ∧ s.key = k := by
  rw [Catalog.withShadows, List.mem_append, List.mem_filterMap]
  simp only [Option.map_eq_some_iff]

/-- A run with roots loads what is selected. -/
theorem mem_runMembers_iff (some : roots ≠ []) : k ∈ runMembers c roots ↔ c.Selected roots k := by
  have reached (k : DatasetKey) : k ∈ c.dependencies.closure roots ↔ c.Reached roots k := by
    rw [DependencyGraph.mem_closure_iff]
    simp only [Catalog.mem_needs_dependencies]
    rfl
  have closure : runMembers c roots = c.withShadows (c.dependencies.closure roots) := by
    rw [runMembers, if_neg (by simpa using some)]
  rw [closure, mem_withShadows, reached]
  simp only [reached, Catalog.Selected]
  refine or_congr_right ?_
  constructor
  · rintro ⟨b, there, s, kept, rfl⟩
    exact ⟨b, s, there, kept, rfl⟩
  · rintro ⟨b, s, there, kept, rfl⟩
    exact ⟨b, there, s, kept, rfl⟩

/-- A run without roots loads everything. -/
theorem mem_runMembers_nil {d : Dataset} (member : d ∈ c.datasets) : d.key ∈ runMembers c [] := by
  refine mem_withShadows.mpr (.inl ?_)
  rw [if_pos List.isEmpty_nil, Catalog.keys, DatasetKey.sort]
  exact (List.mergeSort_perm _ _).mem_iff.mpr (List.mem_map_of_mem member)

/-- What the order of a run is. -/
structure RunsInOrder (c : Catalog) (roots : List DatasetKey) (order : List Dataset) : Prop where
  members : c.dependencies.Ordered (runMembers c roots) (order.map Dataset.key)
  datasets : order ⊆ c.datasets
  known : ∀ r ∈ roots, r ∈ c.dependencies.nodes

/-- A run order that is found is one in which all members come behind what they read. -/
theorem runsInOrder_of_runOrder {order : List Dataset} (found : runOrder c roots = .ok order) :
    RunsInOrder c roots order := by
  rw [runOrder] at found
  split at found
  · cases found
  · next known =>
    obtain ⟨keys, ordered, found⟩ := bind_eq_ok_iff.mp found
    have names : order.map Dataset.key = keys.map id :=
      map_eq_of_mapM_eq_ok found fun k _ d get =>
        (Catalog.of_get? (Catalog.get_eq_ok_iff.mp (mapError_eq_ok_iff.mp get))).2
    refine ⟨?_, fun d member => ?_, fun r root => ?_⟩
    · rw [names, List.map_id]
      exact DependencyGraph.orderOf_ok (mapError_eq_ok_iff.mp ordered)
    · exact forall_of_mapM_eq_ok found (fun k _ d get =>
        (Catalog.of_get? (Catalog.get_eq_ok_iff.mp (mapError_eq_ok_iff.mp get))).1) d member
    · have there := List.find?_eq_none.mp known r root
      rw [Bool.not_eq_true, Bool.not_eq_false'] at there
      exact of_decide_eq_true there

/-- An input that the run loads stands before the dataset that reads it. -/
theorem RunsInOrder.before {order before later : List Dataset} {d : Dataset}
    (runs : RunsInOrder c roots order) (split : order = before ++ d :: later) {u : DatasetKey}
    (input : u ∈ d.inputs) (loaded : u ∈ runMembers c roots) : ∃ e ∈ before, e.key = u := by
  have member : d ∈ c.datasets := runs.datasets (split ▸ List.mem_append_right _ List.mem_cons_self)
  have need : u ∈ c.dependencies.prerequisites d.key :=
    DependencyGraph.mem_prerequisites.mpr
      (Catalog.mem_needs_dependencies.mpr ⟨d, member, rfl, input⟩)
  have keys : order.map Dataset.key = before.map Dataset.key ++ d.key :: later.map Dataset.key := by
    rw [split, List.map_append, List.map_cons]
  exact List.mem_map.mp (runs.members.after _ _ _ keys u need loaded)

end

end Warehouse
