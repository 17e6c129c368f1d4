/-
Module: Warehouse.Proofs.Catalog.QueryOutputs
Purpose: The contract of a query tree says what its query returns. Contract and query are made by
  two walks over the same nodes: a tree whose contract has no faults has a query, the query returns
  the columns of the contract in their order, and every node of the tree fits what the nodes below
  it return.
Trusted boundary: none
Main exports: Catalog.declared, QueryNode.reads, QueryGraph.Below, QueryGraph.Outputs,
  selectPlan_outputs, aggregatePlan_outputs, windowPlan_outputs, unionBranch_outputs,
  contract_describes_plan
-/
import Warehouse.Proofs.Catalog.Columns
import Warehouse.Proofs.Catalog.InferenceSearch
import Warehouse.Proofs.Catalog.QueryReads
import Warehouse.Proofs.Sql.Outputs

namespace Warehouse

open Sql

/-- The columns of each table as the catalog declares them, in the order of their ordinals. -/
def Catalog.declared (c : Catalog) : Layout := fun t =>
  match t.schema with
  | some schema => (c.get? ⟨schema, t.name⟩).elim [] fun d => d.orderedColumns.map Column.name
  | none => []

/-- The nodes whose queries the query of a node is made of. A union reads its branches only. -/
def QueryNode.reads (n : QueryNode) : List NodeId :=
  match n.kind with
  | .union branches _ => branches
  | _ => n.input?.toList

namespace QueryGraph

/-- Whether a node is read, directly or through others, by the query of the tree under `root`. -/
def Below (g : QueryGraph) (root id : NodeId) : Prop :=
  Relation.ReflTransGen (fun above below => ∃ n, g.node? above = some n ∧ below ∈ n.reads) root id

/-- Whether the tree under a node has a query, and one that returns columns of those names. -/
def Outputs (g : QueryGraph) (c : Catalog) (id : NodeId) (names : List String) : Prop :=
  ∃ p, g.plan c id = .ok p ∧ p.outputs c.declared = names.map some

end QueryGraph

/-! ### Queries of single nodes -/

section

variable {layout : Layout}

private theorem outputName?_projectedItem (column : ProjectedColumn) :
    (projectedItem column).outputName? = some column.name := by
  rw [projectedItem]
  split
  · rfl
  · split <;> rfl

/-- The query of a select has the columns that it names, or those of its source. -/
theorem selectPlan_outputs (source : Option Source) (columns : List ProjectedColumn)
    (filter? : Option String) : (selectPlan source columns filter?).outputs layout =
      if columns.isEmpty then Source.outputs? layout source
      else (columns.map ProjectedColumn.name).map some := by
  rw [selectPlan, Select.outputs]
  split
  · simp [SelectItem.outputs]
  · rw [SelectItem.flatMap_outputs_of_named outputName?_projectedItem]

/-- The query of an aggregate has a column for each group and each measure. -/
theorem aggregatePlan_outputs (source : Source) (groupKeys : List String)
    (measures : List Measure) : (aggregatePlan source groupKeys measures).outputs layout =
      (groupKeys ++ measures.map Measure.name).map some := by
  rw [aggregatePlan, Select.outputs, List.flatMap_append,
    SelectItem.flatMap_outputs_of_named (g := id) fun _ => rfl,
    SelectItem.flatMap_outputs_of_named (g := Measure.name) fun _ =>
    rfl, List.map_id, List.map_append]

/-- The query of a window keeps the columns of its source and adds its own. -/
theorem windowPlan_outputs (input : NodeId) (q : Plan) (columns : List WindowColumn) :
    (windowPlan input (nodeSource input q) columns).outputs layout =
      q.outputs layout ++ (columns.map WindowColumn.name).map some := by
  rw [windowPlan, Select.outputs, List.flatMap_cons,
    SelectItem.flatMap_outputs_of_named (g := WindowColumn.name) fun _ => rfl]
  simp [SelectItem.outputs, nodeSource, Source.name, Source.outputs?]

/-- A branch of a union keeps its columns. -/
theorem unionBranch_outputs (branch : NodeId) (q : Plan) :
    (unionBranch branch q).outputs layout = q.outputs layout := by
  cases q with
  | select body => rfl
  | union selects mode =>
    simp [unionBranch, Select.ofItems, Select.reading, Select.outputs,
      SelectItem.outputs, nodeSource, Source.outputs?]

end

/-! ### Queries of trees -/

/-- A table of a dataset is declared with the columns of the dataset, in order. -/
theorem declared_objectName {c : Catalog} {key : DatasetKey} {d : Dataset}
    (found : c.get? key = some d) :
    c.declared key.objectName = d.orderedColumns.map Column.name := by
  rw [DatasetKey.objectName, Catalog.declared]
  simp [found]

/-- Every fault is reported as an error. -/
theorem Issue.error_prefix (i : Issue) : "ERROR: ".toList <+: i.message.toList := by
  rw [message]
  simp [String.toList_append, ToString.toString]

namespace QueryGraph

variable {g : QueryGraph} {c : Catalog} {fuel : Nat} {path : List NodeId} {id root : NodeId}
    {names : List String}

/-- A node that fits the nodes below it has a query if they have, and the query returns the columns
with which it fits. -/
theorem exists_planAt_of_fits {n : QueryNode} (node : g.node? id = some n)
    (fits : Fits c (fun below names => ∃ q, g.planAt fuel below = .ok q ∧
      q.outputs c.declared = names.map some) n names) :
    ∃ p, g.planAt (fuel + 1) id = .ok p ∧ p.outputs c.declared = names.map some := by
  rw [planAt, node_eq_ok_iff.mpr node]
  cases fits with
  | @reading offered single offers uses =>
    simp only [bind, Except.bind, pure, Except.pure]
    cases offers with
    | @input input _ reads known =>
      obtain ⟨q, planned, returns⟩ := known
      simp only [reads, planned]
      cases kind : n.kind with
      | select dataset? columns filter? =>
        refine ⟨_, rfl, ?_⟩
        rw [Plan.outputs, selectPlan_outputs, nodeSource, Source.outputs?, returns,
          QueryNode.outputs_of_select kind, apply_ite (List.map some)]
      | aggregate groupKeys measures =>
        refine ⟨_, rfl, ?_⟩
        rw [Plan.outputs, aggregatePlan_outputs, QueryNode.outputs_of_aggregate kind]
      | union branches all => exact absurd kind (single branches all)
      | window columns =>
        refine ⟨_, rfl, ?_⟩
        rw [Plan.outputs, windowPlan_outputs, returns, QueryNode.outputs_of_window kind,
          List.map_append]
    | @dataset key d inputless named found =>
      rw [QueryNode.dataset?] at named
      cases kind : n.kind with
      | select dataset? columns filter? =>
        rw [kind] at named
        cases named
        simp only [inputless]
        refine ⟨_, rfl, ?_⟩
        rw [Plan.outputs, selectPlan_outputs, Source.outputs?, ← DatasetKey.objectName,
          declared_objectName found, QueryNode.outputs_of_select kind, apply_ite (List.map some)]
      | _ => simp [kind] at named
  | @union branches all first names kind head known agree =>
    have every (branch : NodeId) (member : branch ∈ branches) :
        ∃ s, (do return unionBranch branch (← g.planAt fuel branch) : Except CatalogError Select) =
          .ok s := by
      obtain ⟨_, ⟨q, planned, _⟩, _⟩ := agree branch member
      exact ⟨unionBranch branch q, bind_eq_ok_iff.mpr ⟨q, planned, rfl⟩⟩
    obtain ⟨selects, built⟩ := exists_mapM_eq_ok _ branches every
    refine ⟨.union selects (if all then .all else .distinct), ?_, ?_⟩
    · refine bind_eq_ok_iff.mpr ⟨n, rfl, ?_⟩
      rw [kind]
      exact bind_eq_ok_iff.mpr ⟨selects, built, rfl⟩
    · -- The first branch of the node is the first branch of the union.
      obtain ⟨q, planned, returns⟩ := known
      cases mapM_eq_ok_iff.mp built with
      | nil => cases head
      | cons front rest =>
        cases head
        obtain ⟨q', planned', same⟩ := bind_eq_ok_iff.mp front
        cases planned.symm.trans planned'
        cases same
        rw [Plan.outputs, Select.outputsOfFirst, unionBranch_outputs, returns]

/-- A tree whose contract has no faults has a query, which returns the columns of the contract. -/
theorem exists_planAt_of_inferAt (clean : g.inferAt c fuel path id = .ok ⟨names, []⟩) :
    ∃ p, g.planAt fuel id = .ok p ∧ p.outputs c.declared = names.map some := by
  induction fuel generalizing path id names with
  | zero => cases clean
  | succ fuel ih =>
    obtain ⟨n, node, fits⟩ := fits_of_inferAt clean
    exact exists_planAt_of_fits node (fits.imp fun below names clean => ih clean)

/-- The same for the contract of the whole tree. -/
theorem exists_planAt_of_inferContract (clean : g.inferContract c id = .ok ⟨names, []⟩) :
    ∃ p, g.planAt (g.nodes.length + 1) id = .ok p ∧ p.outputs c.declared = names.map some :=
  exists_planAt_of_inferAt (inferContract_eq g c id ▸ clean)

/-- A contract without issues tells the columns of the query. -/
theorem outputs_of_inferContract (clean : g.inferContract c id = .ok ⟨names, []⟩) :
    g.Outputs c id names := by
  obtain ⟨p, planned, returns⟩ := exists_planAt_of_inferContract clean
  refine ⟨p, ?_, returns⟩
  rw [plan, clean]
  exact planned

/-- What was inferred without faults inside a tree is returned by the query of that part. -/
theorem inferContract_of_inferAt {k : Contract} (deep : fuel ≤ g.nodes.length + 1)
    (inferred : g.inferAt c fuel path id = .ok k) : g.inferContract c id = .ok k :=
  (inferContract_eq g c id).trans (inferAt_mono deep (List.nil_subset path) inferred)

/-- Unless it is a union, a node reads its input. -/
theorem mem_reads_of_input {n : QueryNode} {input : NodeId}
    (single : ∀ branches all, n.kind ≠ .union branches all) (reads : n.input? = some input) :
    input ∈ n.reads := by
  rw [QueryNode.reads]
  split
  · next branches all kind => exact absurd kind (single branches all)
  · exact Option.mem_toList.mpr reads

/-- What a node that fits reads has something to return. -/
theorem exists_of_mem_reads {outputs : NodeId → List String → Prop} {n : QueryNode}
    (fits : Fits c outputs n names) {below : NodeId} (reads : below ∈ n.reads) :
    ∃ others, outputs below others := by
  rw [QueryNode.reads] at reads
  cases fits with
  | reading single offers uses =>
    have reads : n.input? = some below := by
      split at reads
      · next branches all kind => exact absurd kind (single branches all)
      · exact Option.mem_toList.mp reads
    cases offers with
    | input reads' known =>
      cases reads.symm.trans reads'
      exact ⟨_, known⟩
    | dataset inputless named found => cases reads.symm.trans inputless
  | union kind head known agree =>
    rw [kind] at reads
    obtain ⟨others, known, _⟩ := agree below reads
    exact ⟨others, known⟩

/-- Below a node whose contract has no faults there are only such nodes. -/
theorem inferContract_of_below (below : g.Below root id)
    (clean : g.inferContract c root = .ok ⟨names, []⟩) :
    ∃ others, g.inferContract c id = .ok ⟨others, []⟩ := by
  induction below with
  | refl => exact ⟨names, clean⟩
  | tail _ step ih =>
    obtain ⟨n, node, reads⟩ := step
    obtain ⟨between, clean⟩ := ih
    rw [inferContract_eq] at clean
    obtain ⟨n', node', fits⟩ := fits_of_inferAt clean
    cases node.symm.trans node'
    obtain ⟨others, inferred⟩ := exists_of_mem_reads fits reads
    exact ⟨others, inferContract_of_inferAt (Nat.le_succ _) inferred⟩

/-- A contract without issues is that of a node which fits above its inputs. -/
theorem fits_of_inferContract (clean : g.inferContract c id = .ok ⟨names, []⟩) :
    ∃ n, g.node? id = some n ∧ Fits c (g.Outputs c) n names := by
  rw [inferContract_eq] at clean
  obtain ⟨n, node, fits⟩ := fits_of_inferAt clean
  refine ⟨n, node, fits.imp fun below names inferred => ?_⟩
  exact outputs_of_inferContract (inferContract_of_inferAt (Nat.le_succ _) inferred)

/-- There is no plan without a contract that has no issues. -/
theorem plan_eq_ok {p : Plan} (planned : g.plan c id = .ok p) :
    ∃ names, g.inferContract c id = .ok ⟨names, []⟩ := by
  obtain ⟨⟨columns, issues⟩, inferred, planned⟩ := bind_eq_ok_iff.mp planned
  split at planned
  · cases planned
  · next faultless =>
    have silent : issues = [] := by simpa [Contract.hasErrors] using faultless
    rw [silent] at inferred
    exact ⟨columns, inferred⟩

/-- A tree is planned if its contract has no faults, and only then. -/
theorem exists_plan_iff : (∃ p, g.plan c id = .ok p) ↔
    ∃ names, g.inferContract c id = .ok ⟨names, []⟩ := by
  constructor
  · intro ⟨p, planned⟩
    exact plan_eq_ok planned
  · intro ⟨names, clean⟩
    obtain ⟨p, planned, _⟩ := outputs_of_inferContract clean
    exact ⟨p, planned⟩

/-- A tree is refused for its contract if that has faults, which are reported as they are. -/
theorem plan_eq_invalidContract_iff {node : NodeId} {issues : List Issue} :
    g.plan c id = .error (.invalidContract node issues) ↔
      node = id ∧ issues ≠ [] ∧ ∃ columns, g.inferContract c id = .ok ⟨columns, issues⟩ := by
  constructor
  · intro refused
    cases inferred : g.inferContract c id with
    | error e =>
      rw [plan, inferred] at refused
      cases refused
      rw [inferContract_eq] at inferred
      exact absurd inferred inferAt_ne_invalidContract
    | ok k =>
      obtain ⟨columns, found⟩ := k
      cases found with
      | nil =>
        obtain ⟨p, planned, _⟩ := outputs_of_inferContract inferred
        cases planned.symm.trans refused
      | cons first rest =>
        rw [plan, inferred] at refused
        cases refused
        exact ⟨rfl, List.cons_ne_nil first rest, columns, rfl⟩
  · intro ⟨same, faults, columns, inferred⟩
    cases issues with
    | nil => exact absurd rfl faults
    | cons first rest =>
      rw [plan, inferred, same]
      rfl

/-- Contracts describe the queries that they admit. Of every query: it returns the columns of the
contract in their order, and each node that it is made of fits what the nodes below it return. A
tree has no query because of its contract exactly if that carries an error, and otherwise whenever
there is a contract it has one. -/
theorem contract_describes_plan (g : QueryGraph) (c : Catalog) (root : NodeId) :
    (∀ p, g.plan c root = .ok p →
      (∃ k, g.inferContract c root = .ok k ∧ p.outputs c.declared = k.columns.map some) ∧
      ∀ id, g.Below root id → ∃ n names, g.node? id = some n ∧ g.Outputs c id names ∧
        Fits c (g.Outputs c) n names) ∧
    ((∃ node issues, g.plan c root = .error (.invalidContract node issues)) ↔
      ∃ k, g.inferContract c root = .ok k ∧ ∃ i ∈ k.issues, "ERROR: ".toList <+: i.message.toList) ∧
    ((∃ p, g.plan c root = .ok p) ↔ ∃ k, g.inferContract c root = .ok k ∧ k.issues = []) := by
  refine ⟨fun p planned => ?_, ?_, ?_⟩
  · obtain ⟨names, clean⟩ := plan_eq_ok planned
    constructor
    · obtain ⟨p', planned', returns⟩ := outputs_of_inferContract clean
      cases planned.symm.trans planned'
      exact ⟨⟨names, []⟩, clean, returns⟩
    · intro id below
      obtain ⟨others, clean⟩ := inferContract_of_below below clean
      obtain ⟨n, node, fits⟩ := fits_of_inferContract clean
      exact ⟨n, others, node, outputs_of_inferContract clean, fits⟩
  · constructor
    · intro ⟨node, issues, refused⟩
      obtain ⟨_, faults, columns, inferred⟩ := plan_eq_invalidContract_iff.mp refused
      obtain ⟨first, rest, rfl⟩ := List.exists_cons_of_ne_nil faults
      exact ⟨_, inferred, first, List.mem_cons_self, Issue.error_prefix first⟩
    · intro ⟨⟨columns, issues⟩, inferred, i, member, _⟩
      have faults : issues ≠ [] := List.ne_nil_of_mem member
      exact ⟨root, issues, plan_eq_invalidContract_iff.mpr ⟨rfl, faults, columns, inferred⟩⟩
  · rw [exists_plan_iff]
    constructor
    · intro ⟨names, clean⟩
      exact ⟨⟨names, []⟩, clean, rfl⟩
    · intro ⟨⟨names, issues⟩, inferred, silent⟩
      cases silent
      exact ⟨names, inferred⟩

end QueryGraph

/-! ### A tree for examples -/

/-- Sales as they are delivered. -/
def sales : Dataset where
  id := 1
  schema := "raw"
  name := "sales"
  strategy := .full
  materialization := .externalPassthrough
  historize? := none
  naturalKeys := []
  formerNames := []
  handleDeletes := false
  incrementalFilter? := none
  inputs := []
  sources := [⟨"shop", none, "sales"⟩]
  columns :=
    [Column.plain "id" "bigint" 1, Column.plain "amount" "decimal(18,2)" 3,
      Column.plain "region" "varchar(50)" 2]
  queryRoot? := none
  histOf? := none

theorem orderedColumns_sales : sales.orderedColumns =
    [Column.plain "id" "bigint" 1, Column.plain "region" "varchar(50)" 2,
     Column.plain "amount" "decimal(18,2)" 3] :=
  orderedColumns_eq (by decide) (by decide)

/-- A node that chooses from the sales has their columns to choose from, in their order. -/
theorem selectInput_sales {c : Catalog} (found : c.get? sales.key = some sales) (id : NodeId) :
    selectInput c id none (some sales.key) = ⟨["id", "region", "amount"], []⟩ := by
  rw [selectInput, found]
  dsimp only
  rw [orderedColumns_sales]
  rfl

/-- A node that makes no choice outputs all of them. -/
theorem selectContract_sales {c : Catalog} (found : c.get? sales.key = some sales) (id : NodeId) :
    selectContract c id none (some sales.key) [] = ⟨["id", "region", "amount"], []⟩ := by
  rw [selectContract, selectInput_sales found]
  rfl

/-- The best sales of each region: two readings of the sales, joined, ranked and cut off. -/
def salesNodes : List QueryNode :=
  [⟨1, none, .select (some sales.key) [] none⟩,
   ⟨2, some 1, .select none
      [⟨"ID", some "id", none⟩, ⟨"region", none, none⟩, ⟨"amount", none, some "-amount"⟩] none⟩,
   ⟨3, none, .union [1, 2] true⟩,
   ⟨4, some 3, .window [⟨"place", ["REGION"], ["amount"], true⟩]⟩,
   ⟨5, some 4, .select none [] (some "place < 10")⟩]

def salesCatalog : Catalog where
  schemas := [⟨"raw", .raw, false, false, true⟩]
  datasets := [sales]
  queryNodes := salesNodes

/-- The ranking keeps the columns of the sales and adds the place. -/
theorem inferContract_sales :
    salesCatalog.queryGraph.inferContract salesCatalog 5 =
      .ok ⟨["id", "region", "amount", "place"], []⟩ := by
  have delivered (fuel : Nat) (path : List NodeId) (fresh : 1 ∉ path) :
      salesCatalog.queryGraph.inferAt salesCatalog (fuel + 1) path 1 =
        .ok ⟨["id", "region", "amount"], []⟩ :=
    QueryGraph.inferAt_of_inferredNode fresh rfl (.select rfl .none)
      (selectContract_sales rfl 1)
  have projected : salesCatalog.queryGraph.inferAt salesCatalog 3 [3, 4, 5] 2 =
      .ok ⟨["ID", "region", "amount"], []⟩ :=
    QueryGraph.inferAt_of_inferredNode (by decide) rfl
      (.select rfl (.some (delivered 1 _ (by decide)))) rfl
  have joined : salesCatalog.queryGraph.inferAt salesCatalog 4 [4, 5] 3 =
      .ok ⟨["id", "region", "amount"], []⟩ :=
    QueryGraph.inferAt_of_inferredNode (by decide) rfl (.union rfl .none
      (.cons (b := (1, _)) ⟨rfl, delivered 2 _ (by decide)⟩
        (.cons (b := (2, _)) ⟨rfl, projected⟩ .nil))) rfl
  have ranked : salesCatalog.queryGraph.inferAt salesCatalog 5 [5] 4 =
      .ok ⟨["id", "region", "amount", "place"], []⟩ :=
    QueryGraph.inferAt_of_inferredNode (by decide) rfl (.window rfl (.some joined)) rfl
  rw [QueryGraph.inferContract_eq]
  exact QueryGraph.inferAt_of_inferredNode (by decide) rfl (.select rfl (.some ranked)) rfl

/-- The query that ranks the sales has the columns that its contract tells. -/
theorem contract_describes_plan_of_sales :
    ∃ p, salesCatalog.queryGraph.plan salesCatalog 5 = .ok p ∧
      (∃ k, salesCatalog.queryGraph.inferContract salesCatalog 5 = .ok k ∧
        p.outputs salesCatalog.declared = k.columns.map some) ∧
      ∀ id, salesCatalog.queryGraph.Below 5 id →
        ∃ n names, salesCatalog.queryGraph.node? id = some n ∧
        salesCatalog.queryGraph.Outputs salesCatalog id names ∧
        Fits salesCatalog (salesCatalog.queryGraph.Outputs salesCatalog) n names := by
  obtain ⟨p, planned⟩ := QueryGraph.exists_plan_iff.mpr ⟨_, inferContract_sales⟩
  exact ⟨p, planned, (QueryGraph.contract_describes_plan _ salesCatalog 5).1 p planned⟩

end Warehouse
