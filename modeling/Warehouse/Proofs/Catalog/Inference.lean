/-
Module: Warehouse.Proofs.Catalog.Inference
Purpose: What a contract without faults says of its tree. Such a contract stands for a node that
  fits the nodes below it: what it uses is offered to it, and the branches of a union have the same
  columns. Inference comes to the same contract with more fuel and on a shorter path, so what was
  inferred inside a tree is what is inferred of that part alone.
Trusted boundary: none
Main exports: QueryNode.usedColumns, QueryNode.outputs, Offers, Fits, inferAt, inferAt_succ_iff,
  inferAt_mono, fits_of_inferAt, inferAt_ne_invalidContract
-/
import Mathlib.Data.Option.Basic
import Warehouse.Catalog.Contract
import Warehouse.Proofs.Lists
import Warehouse.Proofs.Results

namespace Warehouse

/-- The columns of its input that a node uses by name. What is taken as it is written is not among
them. -/
def QueryNode.usedColumns (n : QueryNode) : List String :=
  match n.kind with
  | .select _ columns _ =>
    (columns.filter fun column => column.expr?.isNone).map ProjectedColumn.source
  | .aggregate groupKeys measures => groupKeys ++ measures.filterMap Measure.column?
  | .union .. => []
  | .window columns => columns.flatMap fun w => w.partitionBy ++ w.orderBy

/-- The columns that a node outputs, given those that are offered to it. -/
def QueryNode.outputs (n : QueryNode) (offered : List String) : List String :=
  match n.kind with
  | .select _ columns _ => if columns.isEmpty then offered else columns.map ProjectedColumn.name
  | .aggregate groupKeys measures => groupKeys ++ measures.map Measure.name
  | .union .. => offered
  | .window columns => offered ++ columns.map WindowColumn.name

section

variable {n : QueryNode} {offered : List String}

/-- A select without columns passes on all it is offered, any other what it names. -/
theorem QueryNode.outputs_of_select {dataset? : Option DatasetKey} {columns : List ProjectedColumn}
    {filter? : Option String} (kind : n.kind = .select dataset? columns filter?) :
    n.outputs offered = if columns.isEmpty then offered else columns.map ProjectedColumn.name := by
  rw [outputs, kind]

/-- An aggregate puts its groups in front of its measures. -/
theorem QueryNode.outputs_of_aggregate {groupKeys : List String} {measures : List Measure}
    (kind : n.kind = .aggregate groupKeys measures) :
    n.outputs offered = groupKeys ++ measures.map Measure.name := by
  rw [outputs, kind]

/-- A window adds its columns behind all it is offered. -/
theorem QueryNode.outputs_of_window {columns : List WindowColumn}
    (kind : n.kind = .window columns) :
    n.outputs offered = offered ++ columns.map WindowColumn.name := by
  rw [outputs, kind]

end

section

variable (c : Catalog) (outputs : NodeId → List String → Prop) (n : QueryNode)

/-- What is offered to a node that chooses from one input, where `outputs` says what other nodes
output. -/
inductive Offers : List String → Prop where
  | input {input : NodeId} {names : List String} (reads : n.input? = some input)
    (known : outputs input names) :
      Offers names
  | dataset {key : DatasetKey} {d : Dataset} (inputless : n.input? = none)
    (named : n.dataset? = some key)
      (found : c.get? key = some d) : Offers (d.orderedColumns.map Column.name)

/-- Whether a node fits the nodes that it reads, and with which columns: all that it uses is offered
to it, and all branches of a union output the same names. The case of ASCII letters does not
count. -/
inductive Fits : List String → Prop where
  | reading {offered : List String} (single : ∀ branches all, n.kind ≠ .union branches all)
      (offers : Offers c outputs n offered)
      (uses : ∀ name ∈ n.usedColumns, ∃ other ∈ offered,
        Text.sameIgnoringAsciiCase other name = true) :
      Fits (n.outputs offered)
  | union {branches : List NodeId} {all : Bool} {first : NodeId} {names : List String}
      (kind : n.kind = .union branches all) (head : branches.head? = some first)
      (known : outputs first names)
      (agree : ∀ branch ∈ branches, ∃ others, outputs branch others ∧
        others.map Text.asciiLower = names.map Text.asciiLower) : Fits names

end

/-- A node fits among inputs of which less is known if it fits among these. -/
theorem Fits.imp {c : Catalog} {outputs outputs' : NodeId → List String → Prop} {n : QueryNode}
    {names : List String} (weaker : ∀ id names, outputs id names → outputs' id names)
    (fits : Fits c outputs n names) : Fits c outputs' n names := by
  cases fits with
  | reading single offers uses =>
    cases offers with
    | input reads known => exact .reading single (.input reads (weaker _ _ known)) uses
    | dataset inputless named found => exact .reading single (.dataset inputless named found) uses
  | union kind head known agree =>
    refine .union kind head (weaker _ _ known) fun branch member => ?_
    obtain ⟨others, known, same⟩ := agree branch member
    exact ⟨others, weaker _ _ known, same⟩

/-! ### Contracts without faults

A contract is built up name by name, and each check that fails leaves an issue in it. No step takes
an issue back. So a contract without issues can be followed backwards: none of its checks failed,
and its names are those that were added. -/

/-- A name is among columns if some column agrees with it up to case. -/
theorem containsName_iff {columns : List String} {name : String} :
    containsName columns name = true ↔ ∃ other ∈ columns,
    Text.sameIgnoringAsciiCase other name = true := by
  rw [containsName, List.any_eq_true]

namespace Contract

variable {k : Contract} {names : List String} {node : NodeId}

private theorem reportIf_eq_clean_iff {bad : Bool} {cause : IssueCause} :
    k.reportIf bad node cause = ⟨names, []⟩ ↔ k = ⟨names, []⟩ ∧ bad = false := by
  cases bad <;> simp [reportIf, report, Contract.mk.injEq]

private theorem output_eq_clean {name : String} (clean : k.output node name = ⟨names, []⟩) :
    ∃ before, k = ⟨before, []⟩ ∧ names = before ++ [name] := by
  obtain ⟨columns, issues⟩ := k
  rw [output] at clean
  split at clean
  · simp [report] at clean
  · simp only [Contract.mk.injEq] at clean
    exact ⟨columns, by rw [clean.2], clean.1.symm⟩

/-- A check in front of a name is passed if nothing is found wrong in the end. -/
theorem output_reportIf_eq_clean {bad : Bool} {cause : IssueCause} {name : String}
    (clean : (k.reportIf bad node cause).output node name = ⟨names, []⟩) :
    ∃ before, k = ⟨before, []⟩ ∧ names = before ++ [name] ∧ bad = false := by
  obtain ⟨before, reported, rfl⟩ := output_eq_clean clean
  obtain ⟨start, fine⟩ := reportIf_eq_clean_iff.mp reported
  exact ⟨before, start, rfl, fine⟩

/-- If a fold comes to a contract without faults, it started from one; what each element adds, and
what its check says, is there together. -/
theorem foldl_eq_clean {α : Type} {step : Contract → α → Contract} {added : α → List String}
    {holds : α → Prop}
    (inverted : ∀ k x names, step k x = ⟨names, []⟩ →
      ∃ before, k = ⟨before, []⟩ ∧ names = before ++ added x ∧ holds x)
    {xs : List α} (clean : xs.foldl step k = ⟨names, []⟩) :
    ∃ before, k = ⟨before, []⟩ ∧ names = before ++ xs.flatMap added ∧ ∀ x ∈ xs, holds x := by
  induction xs generalizing k with
  | nil => exact ⟨names, clean, by simp, by simp⟩
  | cons x xs ih =>
    obtain ⟨between, first, rfl, rest⟩ := ih clean
    obtain ⟨before, start, rfl, head⟩ := inverted k x between first
    refine ⟨before, start, by simp, ?_⟩
    exact List.forall_mem_cons.mpr ⟨head, rest⟩

/-- The same for a fold that only checks. -/
theorem foldl_eq_clean_of_checks {α : Type} {step : Contract → α → Contract} {holds : α → Prop}
    (inverted : ∀ k x names, step k x = ⟨names, []⟩ → k = ⟨names, []⟩ ∧ holds x) {xs : List α}
    (clean : xs.foldl step k = ⟨names, []⟩) : k = ⟨names, []⟩ ∧ ∀ x ∈ xs, holds x := by
  induction xs generalizing k with
  | nil => exact ⟨clean, by simp⟩
  | cons x xs ih =>
    obtain ⟨first, rest⟩ := ih clean
    obtain ⟨start, head⟩ := inverted k x names first
    exact ⟨start, List.forall_mem_cons.mpr ⟨head, rest⟩⟩

end Contract

/-! ### Contracts of single nodes

For each kind of node, what a contract without issues says of the node and of its inputs. -/

section

variable {c : Catalog} {id : NodeId} {names : List String}

/-- A select without faults finds each column that it takes as it is. -/
theorem selectContract_eq_clean {input : Option Contract} {dataset? : Option DatasetKey}
    {columns : List ProjectedColumn}
    (clean : selectContract c id input dataset? columns = ⟨names, []⟩) :
    ∃ offered, selectInput c id input dataset? = ⟨offered, []⟩ ∧
      names = (if columns.isEmpty then offered else columns.map ProjectedColumn.name) ∧
      ∀ column ∈ columns, column.expr?.isNone → containsName offered column.source = true := by
  rw [selectContract] at clean
  split at clean
  · next empty =>
    refine ⟨names, clean, by rw [if_pos empty], ?_⟩
    rw [List.isEmpty_iff.mp empty]
    simp
  · next nonempty =>
    have step (k : Contract) (column : ProjectedColumn) (names : List String)
        (clean : (k.reportIf (column.expr?.isNone &&
          ! containsName (selectInput c id input dataset?).columns column.source) id
          (.columnNotFound column.source)).output id column.name = ⟨names, []⟩) :
        ∃ before, k = ⟨before, []⟩ ∧ names = before ++ [column.name] ∧ (column.expr?.isNone →
          containsName (selectInput c id input dataset?).columns column.source = true) := by
      obtain ⟨before, start, added, fine⟩ := Contract.output_reportIf_eq_clean clean
      refine ⟨before, start, added, fun plain => ?_⟩
      simpa [plain] using fine
    obtain ⟨before, start, rfl, checked⟩ := Contract.foldl_eq_clean step clean
    obtain ⟨rfl, silent⟩ := Contract.mk.inj start
    refine ⟨(selectInput c id input dataset?).columns, ?_, ?_, checked⟩
    · rw [← silent]
    · rw [if_neg nonempty, List.nil_append, List.map_eq_flatMap]

/-- A contract with one more measure of an aggregate over `input`. -/
def addMeasure (id : NodeId) (input k : Contract) (m : Measure) : Contract :=
  (m.column?.elim k fun column =>
    k.reportIf (! containsName input.columns column) id
      (.measureColumnNotFound m.name column)).output id m.name

/-- Groups are added first, then measures. -/
private theorem aggregateContract_eq (input : Contract) (groupKeys : List String)
    (measures : List Measure) :
    aggregateContract id input groupKeys measures = measures.foldl (addMeasure id input)
      (groupKeys.foldl (fun k key =>
        (k.reportIf (! containsName input.columns key) id (.groupKeyNotFound key)).output id key)
        { input with columns := [] }) := by
  rw [aggregateContract]
  refine congrArg (fun step => measures.foldl step _) (funext fun k => funext fun m => ?_)
  rw [addMeasure]
  cases m.column? <;> rfl

private theorem addMeasure_eq_clean (input k : Contract) (m : Measure) (names : List String)
    (clean : addMeasure id input k m = ⟨names, []⟩) :
    ∃ before, k = ⟨before, []⟩ ∧ names = before ++ [m.name] ∧
      ∀ column ∈ m.column?, containsName input.columns column = true := by
  rw [addMeasure] at clean
  cases reads : m.column? with
  | some column =>
    rw [reads] at clean
    obtain ⟨before, start, added, fine⟩ := Contract.output_reportIf_eq_clean clean
    refine ⟨before, start, added, fun other same => ?_⟩
    rw [← Option.mem_some.mp same]
    simpa using fine
  | none =>
    rw [reads] at clean
    obtain ⟨before, start, added⟩ := Contract.output_eq_clean clean
    exact ⟨before, start, added, fun column same => by cases same⟩

/-- An aggregate without faults finds its groups and what it measures. -/
theorem aggregateContract_eq_clean {input : Contract} {groupKeys : List String}
    {measures : List Measure}
    (clean : aggregateContract id input groupKeys measures = ⟨names, []⟩) :
    input = ⟨input.columns, []⟩ ∧ names = groupKeys ++ measures.map Measure.name ∧
      (∀ key ∈ groupKeys, containsName input.columns key = true) ∧
      ∀ m ∈ measures, ∀ column ∈ m.column?, containsName input.columns column = true := by
  have keyStep (k : Contract) (key : String) (names : List String)
      (clean : (k.reportIf (! containsName input.columns key) id
        (.groupKeyNotFound key)).output id key = ⟨names, []⟩) :
      ∃ before, k = ⟨before, []⟩ ∧ names = before ++ [key] ∧
        containsName input.columns key = true := by
    obtain ⟨before, start, added, fine⟩ := Contract.output_reportIf_eq_clean clean
    exact ⟨before, start, added, by simpa using fine⟩
  rw [aggregateContract_eq] at clean
  obtain ⟨keys, grouped, rfl, measured⟩ := Contract.foldl_eq_clean (addMeasure_eq_clean input) clean
  obtain ⟨before, start, rfl, checked⟩ := Contract.foldl_eq_clean keyStep grouped
  obtain ⟨rfl, silent⟩ := Contract.mk.inj start
  refine ⟨by rw [← silent], ?_, checked, measured⟩
  rw [List.map_eq_flatMap, List.nil_append, ← List.map_eq_flatMap, List.map_id']

/-- A window without faults finds what it ranks by and within. -/
theorem windowContract_eq_clean {input : Contract} {columns : List WindowColumn}
    (clean : windowContract id input columns = ⟨names, []⟩) :
    input = ⟨input.columns, []⟩ ∧ names = input.columns ++ columns.map WindowColumn.name ∧
      ∀ w ∈ columns, ∀ reference ∈ w.partitionBy ++ w.orderBy,
        containsName input.columns reference = true := by
  have referenceStep (w : WindowColumn) (k : Contract) (reference : String) (names : List String)
      (clean : k.reportIf (! containsName input.columns reference) id
        (.windowColumnNotFound w.name reference) = ⟨names, []⟩) :
      k = ⟨names, []⟩ ∧ containsName input.columns reference = true := by
    obtain ⟨start, fine⟩ := Contract.reportIf_eq_clean_iff.mp clean
    exact ⟨start, by simpa using fine⟩
  have windowStep (k : Contract) (w : WindowColumn) (names : List String)
      (clean : ((w.partitionBy ++ w.orderBy).foldl (fun k reference =>
        k.reportIf (! containsName input.columns reference) id
          (.windowColumnNotFound w.name reference)) k).output id w.name = ⟨names, []⟩) :
      ∃ before, k = ⟨before, []⟩ ∧ names = before ++ [w.name] ∧
        ∀ reference ∈ w.partitionBy ++ w.orderBy, containsName input.columns reference = true := by
    obtain ⟨between, checks, rfl⟩ := Contract.output_eq_clean clean
    obtain ⟨start, checked⟩ := Contract.foldl_eq_clean_of_checks (referenceStep w) checks
    exact ⟨between, start, rfl, checked⟩
  obtain ⟨before, start, rfl, checked⟩ := Contract.foldl_eq_clean windowStep clean
  refine ⟨by rw [start], ?_, checked⟩
  rw [start, List.map_eq_flatMap]

/-- The branches of a union without faults have the names of the first, up to case. -/
theorem unionContract_eq_clean {contracts : List (NodeId × Contract)}
    (clean : unionContract id contracts = ⟨names, []⟩) :
    (∃ first, contracts.head? = some (first, ⟨names, []⟩)) ∧
      ∀ branch ∈ contracts, branch.2.issues = [] ∧
        branch.2.columns.map Text.asciiLower = names.map Text.asciiLower := by
  cases contracts with
  | nil => simp [unionContract, Contract.report, Contract.empty] at clean
  | cons head rest =>
    obtain ⟨first, k⟩ := head
    have step (k' : Contract) (branch : NodeId × Contract) (names : List String)
        (clean : addBranch id first (branchColumns k) k' branch = ⟨names, []⟩) :
        k' = ⟨names, []⟩ ∧ branch.2.issues = [] ∧
          branch.2.columns.map Text.asciiLower = k.columns.map Text.asciiLower := by
      obtain ⟨joined, same⟩ := Contract.reportIf_eq_clean_iff.mp clean
      obtain ⟨rfl, silent⟩ := Contract.mk.inj joined
      obtain ⟨earlier, own⟩ := List.append_eq_nil_iff.mp silent
      refine ⟨by rw [← earlier], own, ?_⟩
      exact not_not.mp (of_decide_eq_false same)
    obtain ⟨rfl, agree⟩ := Contract.foldl_eq_clean_of_checks step clean
    exact ⟨⟨first, rfl⟩, List.forall_mem_cons.mpr ⟨⟨rfl, rfl⟩, agree⟩⟩

end

/-! ### Contracts of nodes in a tree -/

/-- What the contract of a node is, where `inferred` says what those of other nodes are. -/
inductive InferredNode (c : Catalog) (inferred : NodeId → Contract → Prop) (id : NodeId)
    (n : QueryNode) : Contract → Prop where
  | select {dataset? : Option DatasetKey} {columns : List ProjectedColumn} {filter? : Option String}
      {input : Option Contract} (kind : n.kind = .select dataset? columns filter?)
      (read : Option.Rel inferred n.input? input) :
      InferredNode c inferred id n (selectContract c id input dataset? columns)
  | aggregate {groupKeys : List String} {measures : List Measure} {input : Option Contract}
      (kind : n.kind = .aggregate groupKeys measures) (read : Option.Rel inferred n.input? input) :
      InferredNode c inferred id n
        (aggregateContract id (requiredInput id n.kind.label input) groupKeys measures)
  | union {branches : List NodeId} {all : Bool} {input : Option Contract}
    {contracts : List (NodeId × Contract)}
      (kind : n.kind = .union branches all) (read : Option.Rel inferred n.input? input)
      (each : List.Forall₂ (fun branch k => k.1 = branch ∧ inferred branch k.2) branches
        contracts) :
      InferredNode c inferred id n (unionContract id contracts)
  | window {columns : List WindowColumn} {input : Option Contract} (kind : n.kind = .window columns)
      (read : Option.Rel inferred n.input? input) :
      InferredNode c inferred id n (windowContract id (requiredInput id n.kind.label input) columns)

/-- A contract follows from contracts of which less is known if it follows from these. -/
theorem InferredNode.imp {c : Catalog} {inferred inferred' : NodeId → Contract → Prop} {id : NodeId}
    {n : QueryNode} {k : Contract} (weaker : ∀ id k, inferred id k → inferred' id k)
    (made : InferredNode c inferred id n k) : InferredNode c inferred' id n k := by
  have carry {input? : Option NodeId} {input : Option Contract}
    (read : Option.Rel inferred input? input) :
      Option.Rel inferred' input? input := by
    cases read with
    | some known => exact .some (weaker _ _ known)
    | none => exact .none
  cases made with
  | select kind read => exact .select kind (carry read)
  | aggregate kind read => exact .aggregate kind (carry read)
  | union kind read each =>
    exact .union kind (carry read) (each.imp fun _ _ known => ⟨known.1, weaker _ _ known.2⟩)
  | window kind read => exact .window kind (carry read)

private theorem inferInput_eq_ok_iff {infer : NodeId → Except CatalogError Contract}
    {input? : Option NodeId} {input : Option Contract} : inferInput infer input? = .ok input ↔
      Option.Rel (fun id k => infer id = .ok k) input? input := by
  cases input? with
  | none =>
    constructor
    · intro read
      cases read
      exact .none
    · intro read
      cases read
      rfl
  | some id =>
    rw [inferInput, bind_eq_ok_iff]
    constructor
    · rintro ⟨k, known, same⟩
      cases same
      exact .some known
    · intro read
      cases read with
      | some known => exact ⟨_, known, rfl⟩

section

variable {c : Catalog} {id : NodeId} {k : Contract}

private theorem mapM_branches_eq_ok_iff {infer : NodeId → Except CatalogError Contract}
    {branches : List NodeId} {contracts : List (NodeId × Contract)} :
    (branches.mapM fun branch => do return (branch, ← infer branch)) = .ok contracts ↔
      List.Forall₂ (fun branch k => k.1 = branch ∧ infer branch = .ok k.2) branches contracts := by
  have entry (branch : NodeId) (k : NodeId × Contract) :
      (do return (branch, ← infer branch) : Except CatalogError (NodeId × Contract)) = .ok k ↔
        k.1 = branch ∧ infer branch = .ok k.2 := by
    rw [bind_eq_ok_iff]
    constructor
    · rintro ⟨k', known, same⟩
      cases same
      exact ⟨rfl, known⟩
    · rintro ⟨rfl, known⟩
      exact ⟨k.2, known, rfl⟩
  rw [mapM_eq_ok_iff]
  simp only [entry]

/-- The contract of a node is inferred exactly if it follows from contracts that are inferred for
its inputs, by the rule for its kind. -/
theorem inferNode_eq_ok_iff {infer : NodeId → Except CatalogError Contract} {n : QueryNode} :
    inferNode c infer id n = .ok k ↔
      InferredNode c (fun below k => infer below = .ok k) id n k := by
  rw [inferNode, bind_eq_ok_iff]
  constructor
  · rintro ⟨input, read, made⟩
    rw [inferInput_eq_ok_iff] at read
    split at made
    · next kind => cases made; exact .select kind read
    · next kind => cases made; exact .aggregate kind read
    · next kind =>
      obtain ⟨contracts, each, same⟩ := bind_eq_ok_iff.mp made
      cases same
      exact .union kind read (mapM_branches_eq_ok_iff.mp each)
    · next kind => cases made; exact .window kind read
  · intro made
    cases made with
    | select kind read => exact ⟨_, inferInput_eq_ok_iff.mpr read, by rw [kind]; rfl⟩
    | aggregate kind read => exact ⟨_, inferInput_eq_ok_iff.mpr read, by rw [kind]; rfl⟩
    | union kind read each =>
      refine ⟨_, inferInput_eq_ok_iff.mpr read, ?_⟩
      rw [kind]
      exact bind_eq_ok_iff.mpr ⟨_, mapM_branches_eq_ok_iff.mpr each, rfl⟩
    | window kind read => exact ⟨_, inferInput_eq_ok_iff.mpr read, by rw [kind]; rfl⟩

/-- If the contract of a node cannot be made, that of a node which it reads cannot. -/
theorem exists_of_inferNode_eq_error {infer : NodeId → Except CatalogError Contract} {n : QueryNode}
    {e : CatalogError} (failed : inferNode c infer id n = .error e) :
    ∃ below ∈ n.children, infer below = .error e := by
  rw [inferNode, bind_eq_error_iff] at failed
  rw [QueryNode.children]
  rcases failed with read | ⟨input, _, made⟩
  · cases reads : n.input? with
    | none =>
      rw [reads] at read
      cases read
    | some input =>
      rw [reads, inferInput, bind_eq_error_iff] at read
      rcases read with below | ⟨k, _, impossible⟩
      · exact ⟨input, by simp, below⟩
      · cases impossible
  · split at made
    · cases made
    · cases made
    · next branches all kind =>
      rcases bind_eq_error_iff.mp made with each | ⟨contracts, _, impossible⟩
      · obtain ⟨branch, member, failed⟩ := exists_of_mapM_eq_error each
        rcases bind_eq_error_iff.mp failed with below | ⟨k, _, impossible⟩
        · exact ⟨branch, by simp [kind, member], below⟩
        · cases impossible
      · cases impossible
    · cases made

namespace QueryGraph

/-- The contract of the node `id`, which is read by the nodes of `path`, without a memory: all that
is below it is searched anew, `fuel` nodes deep. -/
def inferAt (g : QueryGraph) (c : Catalog) : Nat → List NodeId → NodeId →
    Except CatalogError Contract
  | 0, _, id => .error (.queryCycle id)
  | fuel + 1, path, id =>
    if path.contains id then .error (.queryCycle id)
    else g.node id >>= inferNode c (g.inferAt c fuel (id :: path)) id

variable {g : QueryGraph} {fuel : Nat} {path : List NodeId}

/-- One step of the inference: a number on the path closes a cycle, and any other leads to a node,
whose inputs are gone into with the number on the path. -/
theorem inferAt_succ : g.inferAt c (fuel + 1) path id =
    if path.contains id then .error (.queryCycle id)
    else g.node id >>= inferNode c (g.inferAt c fuel (id :: path)) id := rfl

/-- A node is got exactly if there is one of that number. -/
theorem node_eq_ok_iff {n : QueryNode} : g.node id = .ok n ↔ g.node? id = some n := by
  rw [node]
  cases g.node? id <;> simp

/-- How the contract of a node is made. -/
theorem inferAt_succ_iff : g.inferAt c (fuel + 1) path id = .ok k ↔
    id ∉ path ∧ ∃ n, g.node? id = some n ∧
      InferredNode c (fun below k => g.inferAt c fuel (id :: path) below = .ok k) id n k := by
  rw [inferAt_succ]
  by_cases repeated : id ∈ path
  · simp [repeated]
  · simp [repeated, bind_eq_ok_iff, node_eq_ok_iff, inferNode_eq_ok_iff]

/-- A contract that follows from what is inferred below, off the path, is inferred. -/
theorem inferAt_of_inferredNode {n : QueryNode} {k' : Contract} (fresh : id ∉ path)
    (node : g.node? id = some n)
    (made : InferredNode c (fun below k => g.inferAt c fuel (id :: path) below = .ok k) id n k')
    (same : k' = k) :
    g.inferAt c (fuel + 1) path id = .ok k := by
  rw [inferAt_succ_iff, ← same]
  exact ⟨fresh, n, node, made⟩

/-- What is inferred inside a tree is inferred of that part alone. -/
theorem inferAt_mono {fuel' : Nat} {path' : List NodeId} (more : fuel ≤ fuel')
    (shorter : path' ⊆ path) (inferred : g.inferAt c fuel path id = .ok k) :
    g.inferAt c fuel' path' id = .ok k := by
  induction fuel generalizing fuel' path path' id k with
  | zero => cases inferred
  | succ fuel ih =>
    obtain ⟨fuel', rfl⟩ := Nat.exists_eq_add_of_lt more
    obtain ⟨fresh, n, node, made⟩ := inferAt_succ_iff.mp inferred
    refine inferAt_succ_iff.mpr ⟨fun repeated => fresh (shorter repeated), n, node, ?_⟩
    exact made.imp fun below k inferred => ih (by omega) (List.cons_subset_cons id shorter) inferred

/-- Inference does not fail for the faults that a contract carries. -/
theorem inferAt_ne_invalidContract {root : NodeId} {issues : List Issue} :
    g.inferAt c fuel path id ≠ .error (.invalidContract root issues) := by
  intro failed
  induction fuel generalizing path id with
  | zero => cases failed
  | succ fuel ih =>
    rw [inferAt_succ] at failed
    split at failed
    · cases failed
    · rcases bind_eq_error_iff.mp failed with missing | ⟨n, _, failed⟩
      · rw [node] at missing
        split at missing
        · cases missing
        · cases missing
      · obtain ⟨below, _, failed⟩ := exists_of_inferNode_eq_error failed
        exact ih failed

/-! ### Contracts without faults, in a tree -/

end QueryGraph

section

variable {inferred : NodeId → Contract → Prop} {n : QueryNode} {input : Option Contract}

private theorem exists_of_rel_some {input? : Option NodeId} {k : Contract}
    (read : Option.Rel inferred input? (some k)) :
    ∃ below, input? = some below ∧ inferred below k := by
  cases read with
  | some known => exact ⟨_, rfl, known⟩

/-- What a select node chooses from is offered to it. -/
theorem offers_of_selectInput {columns : List ProjectedColumn} {filter? : Option String}
    {dataset? : Option DatasetKey} {offered : List String}
    (kind : n.kind = .select dataset? columns filter?) (read : Option.Rel inferred n.input? input)
    (clean : selectInput c id input dataset? = ⟨offered, []⟩) :
    Offers c (fun below names => inferred below ⟨names, []⟩) n offered := by
  have named : n.dataset? = dataset? := by rw [QueryNode.dataset?, kind]
  rw [selectInput.eq_def] at clean
  split at clean
  · obtain ⟨below, reads, known⟩ := exists_of_rel_some read
    rw [clean] at known
    exact .input reads known
  · next key =>
    have inputless : n.input? = none := by
      generalize n.input? = input? at read
      cases read
      rfl
    split at clean
    · next found =>
      cases clean
      exact .dataset inputless named found
    · simp [Contract.report] at clean
  · simp [Contract.report] at clean

/-- What a node that has to have an input takes from it is offered to it. -/
theorem offers_of_requiredInput {label : String} (read : Option.Rel inferred n.input? input)
    (clean : requiredInput id label input = ⟨(requiredInput id label input).columns, []⟩) :
    Offers c (fun below names => inferred below ⟨names, []⟩) n
      (requiredInput id label input).columns := by
  cases input with
  | none => simp [requiredInput, Contract.report, Contract.mk.injEq] at clean
  | some k =>
    obtain ⟨below, reads, known⟩ := exists_of_rel_some read
    rw [requiredInput, Option.getD_some] at clean
    rw [clean] at known
    exact .input reads known

/-- A node with a contract without faults fits the nodes below it, which have such contracts too. -/
theorem fits_of_inferredNode {names : List String}
    (made : InferredNode c inferred id n ⟨names, []⟩) :
    Fits c (fun below names => inferred below ⟨names, []⟩) n names := by
  generalize clean : (⟨names, []⟩ : Contract) = k at made
  cases made with
  | @select dataset? columns filter? input kind read =>
    obtain ⟨offered, chosen, rfl, checked⟩ := selectContract_eq_clean clean.symm
    have uses : ∀ name ∈ n.usedColumns, ∃ other ∈ offered,
        Text.sameIgnoringAsciiCase other name = true := by
      intro name used
      rw [QueryNode.usedColumns, kind] at used
      obtain ⟨column, plain, rfl⟩ := List.mem_map.mp used
      obtain ⟨member, plain⟩ := List.mem_filter.mp plain
      exact containsName_iff.mp (checked column member plain)
    rw [← QueryNode.outputs_of_select kind]
    exact .reading (by simp [kind]) (offers_of_selectInput kind read chosen) uses
  | @aggregate groupKeys measures input kind read =>
    obtain ⟨start, rfl, keys, measured⟩ := aggregateContract_eq_clean clean.symm
    have uses : ∀ name ∈ n.usedColumns, ∃ other ∈ (requiredInput id n.kind.label input).columns,
        Text.sameIgnoringAsciiCase other name = true := by
      intro name used
      rw [QueryNode.usedColumns, kind] at used
      rcases List.mem_append.mp used with key | measure
      · exact containsName_iff.mp (keys name key)
      · obtain ⟨m, member, reads⟩ := List.mem_filterMap.mp measure
        exact containsName_iff.mp (measured m member name reads)
    rw [← QueryNode.outputs_of_aggregate kind]
    exact .reading (by simp [kind]) (offers_of_requiredInput read start) uses
  | @union branches all input contracts kind read each =>
    obtain ⟨⟨first, head⟩, agree⟩ := unionContract_eq_clean clean.symm
    have known {branch : NodeId} (member : branch ∈ branches) :
      ∃ others, inferred branch ⟨others, []⟩ ∧
        others.map Text.asciiLower = names.map Text.asciiLower := by
      obtain ⟨⟨_, columns, issues⟩, among, rfl, known⟩ := exists_of_mem_right each.flip member
      obtain ⟨rfl, same⟩ := agree _ among
      exact ⟨columns, known, same⟩
    cases each with
    | nil => cases head
    | cons first rest =>
      cases head
      obtain ⟨rfl, first⟩ := first
      exact .union kind rfl first fun branch member => known member
  | @window columns input kind read =>
    obtain ⟨start, rfl, windows⟩ := windowContract_eq_clean clean.symm
    have uses : ∀ name ∈ n.usedColumns, ∃ other ∈ (requiredInput id n.kind.label input).columns,
        Text.sameIgnoringAsciiCase other name = true := by
      intro name used
      rw [QueryNode.usedColumns, kind] at used
      obtain ⟨w, member, reference⟩ := List.mem_flatMap.mp used
      exact containsName_iff.mp (windows w member name reference)
    rw [← QueryNode.outputs_of_window kind]
    exact .reading (by simp [kind]) (offers_of_requiredInput read start) uses

end

/-- A node with a contract without faults fits the nodes below it, which have such contracts too. -/
theorem QueryGraph.fits_of_inferAt {g : QueryGraph} {fuel : Nat} {path : List NodeId}
    {names : List String} (clean : g.inferAt c (fuel + 1) path id = .ok ⟨names, []⟩) :
    ∃ n, g.node? id = some n ∧
      Fits c (fun below names => g.inferAt c fuel (id :: path) below = .ok ⟨names, []⟩)
        n names := by
  obtain ⟨_, n, node, made⟩ := inferAt_succ_iff.mp clean
  exact ⟨n, node, fits_of_inferredNode made⟩

end

end Warehouse
