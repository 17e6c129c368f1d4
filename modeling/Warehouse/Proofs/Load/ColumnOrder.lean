/-
Module: Warehouse.Proofs.Load.ColumnOrder
Purpose: Whether an insert pairs values and columns by name. The columns of the insert are those of
  a contract, in declared order; the values come in the order that stars have in the database, where
  a column that was added later stands last. The two agree in every such order exactly if the query
  passes on no table of columns that can be told apart, and the branches of a union agree exactly if
  they pass on the same table, or none of that kind.
Trusted boundary: none
Main exports: Reorders, OfOneName, PassesOn, Plan.UnionsAgree, planned_passesOn,
  insert_by_position_iff
-/
import Warehouse.Load.Compose
import Warehouse.Proofs.Catalog.QueryOutputs
import Warehouse.Proofs.Drift.Change
import Warehouse.Proofs.Load.Synchronise

namespace Warehouse

open Sql

/-! ### Orders of columns

A database stores the columns of a table in an order of its own, which need not be the declared one.
A query that lists its columns does not depend on that order, and one that takes all columns of a
table passes it on. -/

/-- Whether every table has its declared columns, in some order. -/
def Reorders (declared physical : Layout) : Prop := ∀ t, (physical t).Perm (declared t)

/-- The declared order, but for one table that has a column of the name `x` first. -/
def leading (declared : Layout) (t : ObjectName) (x : String) : Layout :=
  Function.update declared t (x :: (declared t).erase x)

/-- Whether all columns of a table, if there is one, are called the same, as far as `read` tells
names apart. -/
def OfOneName (declared : Layout) (read : String → String) (t? : Option ObjectName) : Prop :=
  ∀ t ∈ t?, ∀ x ∈ declared t, ∀ y ∈ declared t, read x = read y

/-- Whether a query passes on the columns of a table, if there is one, and then returns columns that
are the same in every order. -/
def PassesOn (t? : Option ObjectName) (outputs : Layout → List (Option String)) : Prop :=
  ∃ rest, ∀ layout : Layout, outputs layout = (t?.elim [] layout).map some ++ rest

/-- Names as far as `read` tells them apart. -/
def readNames (read : String → String) (names : List (Option String)) : List (Option String) :=
  names.map (Option.map read)

/-- Whether the branches of every union in a query agree position by position, up to the case of
ASCII letters. -/
def Sql.Plan.UnionsAgree (layout : Layout) (p : Plan) : Prop :=
  ∀ branches ∈ p.unions, ∀ a ∈ branches, ∀ b ∈ branches,
    readNames Text.asciiLower (a.outputs layout) = readNames Text.asciiLower (b.outputs layout)

section

variable {declared physical : Layout} {read : String → String} {t : ObjectName} {x : String}

/-- To put one column in front is a reordering. -/
theorem reorders_leading (column : x ∈ declared t) : Reorders declared (leading declared t x) := by
  intro t'
  by_cases same : t' = t
  · rw [same, leading, Function.update_self]
    exact (List.perm_cons_erase column).symm
  · rw [leading, Function.update_of_ne same]

/-- Names that are all one are the same in every order. -/
theorem map_read_eq_of_perm {xs ys : List String} (perm : ys.Perm xs)
    (one : ∀ x ∈ xs, ∀ y ∈ xs, read x = read y) : ys.map read = xs.map read := by
  cases xs with
  | nil => rw [List.perm_nil.mp perm]
  | cons x xs =>
    have all : ∀ n ∈ (x :: xs).map read, n = read x := by
      intro n member
      obtain ⟨y, among, rfl⟩ := List.mem_map.mp member
      exact one y among x List.mem_cons_self
    have constant := List.eq_replicate_of_mem all
    have reordered := perm.map read
    rw [constant] at reordered
    rw [constant, List.perm_replicate.mp reordered]

private theorem readNames_append (a b : List (Option String)) :
    readNames read (a ++ b) = readNames read a ++ readNames read b := List.map_append

private theorem readNames_some (names : List String) :
    readNames read (names.map some) = (names.map read).map some := by
  simp [readNames]

/-- A query that passes on columns of one name returns the same names in every order. -/
theorem PassesOn.reads_eq {t? : Option ObjectName} {outputs : Layout → List (Option String)}
    (passes : PassesOn t? outputs) (one : OfOneName declared read t?)
    (orders : Reorders declared physical) :
    readNames read (outputs physical) = readNames read (outputs declared) := by
  obtain ⟨rest, returns⟩ := passes
  rw [returns, returns, readNames_append, readNames_append]
  cases t? with
  | none => rfl
  | some t =>
    rw [Option.elim_some, Option.elim_some, readNames_some, readNames_some,
      map_read_eq_of_perm (orders t) (one t rfl)]

/-- If the first name does not depend on which column leads, the columns are of one name. -/
theorem PassesOn.ofOneName {t? : Option ObjectName} {outputs : Layout → List (Option String)}
    (passes : PassesOn t? outputs)
    (same : ∀ t ∈ t?, ∀ x ∈ declared t,
      readNames read (outputs (leading declared t x)) = readNames read (outputs declared)) :
    OfOneName declared read t? := by
  obtain ⟨rest, returns⟩ := passes
  intro t passed x first y second
  cases passed
  have head {x : String} (column : x ∈ declared t) :
      (readNames read (outputs declared)).head? = some (some (read x)) := by
    rw [← same t rfl x column, returns, Option.elim_some, leading, Function.update_self]
    rfl
  have agree := (head first).symm.trans (head second)
  simpa using agree

/-- A query returns the same in an order that is the declared one but for a table which it does not
pass on. -/
theorem PassesOn.eq_leading {t? : Option ObjectName} {outputs : Layout → List (Option String)}
    (passes : PassesOn t? outputs) (other : t? ≠ some t) :
    outputs (leading declared t x) = outputs declared := by
  obtain ⟨rest, returns⟩ := passes
  rw [returns, returns]
  cases t? with
  | none => rfl
  | some t' =>
    have apart : t' ≠ t := fun same => other (by rw [same])
    rw [Option.elim_some, Option.elim_some, leading, Function.update_of_ne apart]

/-- A query returns the declared names in every order exactly if it passes on columns of one name
only. -/
theorem PassesOn.returns_declared_iff {t? : Option ObjectName}
    {outputs : Layout → List (Option String)} (passes : PassesOn t? outputs) :
    (∀ physical, Reorders declared physical → outputs physical = outputs declared) ↔
      OfOneName declared id t? := by
  have plain (names : List (Option String)) : readNames id names = names := by simp [readNames]
  constructor
  · intro same
    refine passes.ofOneName fun t passed x column => ?_
    rw [same _ (reorders_leading column)]
  · intro one physical orders
    have reads := passes.reads_eq one orders
    rw [plain, plain] at reads
    exact reads

/-- Two queries that return the same names in the declared order do so in every order exactly if
they pass on the same table, or neither passes on columns that can be told apart. -/
theorem PassesOn.agree_iff {a? b? : Option ObjectName} {left right : Layout → List (Option String)}
    (passesLeft : PassesOn a? left) (passesRight : PassesOn b? right)
    (agree : readNames read (left declared) = readNames read (right declared)) :
    (∀ physical, Reorders declared physical →
      readNames read (left physical) = readNames read (right physical)) ↔
      a? = b? ∨ (OfOneName declared read a? ∧ OfOneName declared read b?) := by
  constructor
  · intro every
    by_cases same : a? = b?
    · exact .inl same
    · refine .inr ⟨passesLeft.ofOneName fun t passed x column => ?_,
        passesRight.ofOneName fun t passed x column => ?_⟩
      · have other : b? ≠ some t := fun also => same (passed.trans also.symm)
        rw [every _ (reorders_leading column), passesRight.eq_leading other, agree]
      · have other : a? ≠ some t := fun also => same (also.trans passed.symm)
        rw [← every _ (reorders_leading column), passesLeft.eq_leading other, agree]
  · intro either physical orders
    rcases either with same | ⟨oneLeft, oneRight⟩
    · obtain ⟨restLeft, returnsLeft⟩ := passesLeft
      obtain ⟨restRight, returnsRight⟩ := passesRight
      rw [returnsLeft, returnsRight, readNames_append, readNames_append, same] at agree ⊢
      rw [List.append_cancel_left agree]
    · rw [passesLeft.reads_eq oneLeft orders, passesRight.reads_eq oneRight orders, agree]

end

/-! ### Queries of trees -/

section

variable {g : QueryGraph} {fuel : Nat} {id : NodeId}

private theorem selectPlan_passed? (source : Option Source) (columns : List ProjectedColumn)
    (filter? : Option String) :
    (selectPlan source columns filter?).passed? = if columns.isEmpty then Source.passed? source
    else none := by
  rw [selectPlan, Select.passed?]
  cases columns with
  | nil => rfl
  | cons column rest =>
    have plain : (projectedItem column).isStar = false := by
      rw [projectedItem]
      split
      · rfl
      · split <;> rfl
    simp [plain]

/-- A select without columns passes on what its source passes on, any other nothing. -/
theorem selectPlan_passesOn (source : Option Source) (columns : List ProjectedColumn)
    (filter? : Option String)
    (passes : PassesOn (Source.passed? source) fun layout => Source.outputs? layout source) :
    PassesOn (selectPlan source columns filter?).passed? fun layout =>
      (selectPlan source columns filter?).outputs layout := by
  simp only [selectPlan_passed?, selectPlan_outputs]
  split
  · exact passes
  · exact ⟨_, fun _ => rfl⟩

/-- An aggregate lists its columns. -/
theorem aggregatePlan_passesOn (source : Source) (groupKeys : List String)
    (measures : List Measure) :
    PassesOn (aggregatePlan source groupKeys measures).passed? fun layout =>
      (aggregatePlan source groupKeys measures).outputs layout := by
  have none : (aggregatePlan source groupKeys measures).passed? = none := by
    rw [aggregatePlan, Select.passed?]
    cases groupKeys with
    | nil => cases measures <;> rfl
    | cons key rest => rfl
  simp only [none, aggregatePlan_outputs]
  exact ⟨_, fun _ => rfl⟩

/-- A window passes on what its input does, in front of its own columns. -/
theorem windowPlan_passesOn (input : NodeId) (q : Plan) (columns : List WindowColumn)
    (passes : PassesOn q.passed? fun layout => q.outputs layout) :
    PassesOn (windowPlan input (nodeSource input q) columns).passed? fun layout =>
      (windowPlan input (nodeSource input q) columns).outputs layout := by
  obtain ⟨rest, returns⟩ := passes
  refine ⟨rest ++ (columns.map WindowColumn.name).map some, fun layout => ?_⟩
  dsimp only at returns ⊢
  rw [windowPlan_outputs, returns, List.append_assoc]
  rfl

private theorem unionBranch_passed? (branch : NodeId) (q : Plan) :
    (unionBranch branch q).passed? = q.passed? := by
  cases q <;> rfl

private theorem unionBranch_unions (branch : NodeId) (q : Plan) :
    (unionBranch branch q).unions = q.unions := by
  cases q <;> rfl

/-- What the query of a node returns is what one table has, in the order that it has it, and then
columns that are the same in every order; so it is with every branch of every union in it. -/
theorem planned_passesOn {p : Plan} (planned : g.planAt fuel id = .ok p) :
    (PassesOn p.passed? fun layout => p.outputs layout) ∧
      ∀ branches ∈ p.unions, ∀ s ∈ branches, PassesOn s.passed? fun layout => s.outputs layout := by
  induction fuel generalizing id p with
  | zero => cases planned
  | succ fuel ih =>
    obtain ⟨n, node, made⟩ := QueryGraph.plannedNode_of_planAt planned
    cases made with
    | @ofInput dataset? columns filter? input q kind reads below =>
      obtain ⟨passes, inner⟩ := ih below
      exact ⟨selectPlan_passesOn (some (nodeSource input q)) columns filter? passes, inner⟩
    | @ofDataset key columns filter? kind =>
      refine ⟨selectPlan_passesOn _ columns filter? ⟨[], fun layout => ?_⟩,
        fun branches member => by cases member⟩
      exact (List.append_nil _).symm
    | @ofNothing columns filter? kind =>
      exact ⟨selectPlan_passesOn none columns filter? ⟨[], fun _ => rfl⟩,
        fun branches member => by cases member⟩
    | @aggregate groupKeys measures input q kind reads below =>
      obtain ⟨_, inner⟩ := ih below
      exact ⟨aggregatePlan_passesOn (nodeSource input q) groupKeys measures, inner⟩
    | @window columns input q kind reads below =>
      obtain ⟨passes, inner⟩ := ih below
      exact ⟨windowPlan_passesOn input q columns passes, inner⟩
    | @union branches all selects mode kind below =>
      have each (s : Select) (member : s ∈ selects) :
        (PassesOn s.passed? fun layout => s.outputs layout) ∧
          ∀ branches ∈ s.unions, ∀ s' ∈ branches, PassesOn s'.passed? fun layout =>
          s'.outputs layout := by
        obtain ⟨branch, _, q, planned, rfl⟩ := exists_of_mem_right below member
        simp only [unionBranch_passed?, unionBranch_unions, unionBranch_outputs]
        exact ih planned
      constructor
      · cases selects with
        | nil => exact ⟨[], fun _ => rfl⟩
        | cons first rest => exact (each first List.mem_cons_self).1
      · intro branches' member s among
        rcases List.mem_cons.mp member with rfl | deeper
        · exact (each s among).1
        · obtain ⟨s', there, inner⟩ := Select.mem_unionsOfAll.mp deeper
          exact (each s' there).2 branches' inner s among

/-- The branches of a union that fits output the names with which it does, whatever their case. -/
theorem branches_of_fits {c : Catalog} {outputs : NodeId → List String → Prop} {n : QueryNode}
    {names : List String} (fits : Fits c outputs n names) {branches : List NodeId} {all : Bool}
    (kind : n.kind = .union branches all) : ∀ branch ∈ branches, ∃ others, outputs branch others ∧
      others.map Text.asciiLower = names.map Text.asciiLower := by
  cases fits with
  | reading single _ _ => exact absurd kind (single branches all)
  | union kind' _ _ agree =>
    cases kind.symm.trans kind'
    exact agree

/-- In the declared order, the branches of the unions of a tree agree: its contract says so. -/
theorem unionsAgree_declared {c : Catalog} {path : List NodeId} {names : List String} {p : Plan}
    (clean : g.inferAt c fuel path id = .ok ⟨names, []⟩) (planned : g.planAt fuel id = .ok p) :
    p.UnionsAgree c.declared := by
  induction fuel generalizing path id names p with
  | zero => cases planned
  | succ fuel ih =>
    obtain ⟨n, node, made⟩ := QueryGraph.plannedNode_of_planAt planned
    obtain ⟨n', node', fits⟩ := QueryGraph.fits_of_inferAt clean
    cases node.symm.trans node'
    have inner {below : NodeId} {q : Plan} (reads : below ∈ n.reads)
      (planned : g.planAt fuel below = .ok q) :
        q.UnionsAgree c.declared := by
      obtain ⟨others, clean⟩ := QueryGraph.exists_of_mem_reads fits reads
      exact ih clean planned
    cases made with
    | ofInput kind reads below =>
      have agree := inner (QueryGraph.mem_reads_of_input (by simp [kind]) reads) below
      exact agree
    | ofDataset kind => exact fun branches member => by cases member
    | ofNothing kind => exact fun branches member => by cases member
    | aggregate kind reads below =>
      have agree := inner (QueryGraph.mem_reads_of_input (by simp [kind]) reads) below
      exact agree
    | window kind reads below =>
      have agree := inner (QueryGraph.mem_reads_of_input (by simp [kind]) reads) below
      exact agree
    | @union branches all selects mode kind below =>
      intro branches' member
      rcases List.mem_cons.mp member with rfl | deeper
      · have returns (s : Select) (among : s ∈ branches') :
            readNames Text.asciiLower (s.outputs c.declared) =
              (names.map Text.asciiLower).map some := by
          obtain ⟨branch, there, q, planned, rfl⟩ := exists_of_mem_right below among
          obtain ⟨others, clean, same⟩ := branches_of_fits fits kind branch there
          obtain ⟨q', planned', returns⟩ := QueryGraph.exists_planAt_of_inferAt clean
          cases planned.symm.trans planned'
          rw [unionBranch_outputs, returns, readNames_some, same]
        intro a left b right
        rw [returns a left, returns b right]
      · obtain ⟨s, there, deeper⟩ := Select.mem_unionsOfAll.mp deeper
        obtain ⟨branch, among, q, planned, rfl⟩ := exists_of_mem_right below there
        rw [unionBranch_unions] at deeper
        exact inner (by rw [QueryNode.reads, kind]; exact among) planned branches' deeper

end

/-! ### Loads -/

/-- A load in full, by appending or as a snapshot ends with the insert of its source query. -/
theorem exists_insert_of_loadStatements {c : Catalog} {d : Dataset} {plan : LoadPlan}
    {transactional : Bool} {statements : List Planned}
    (mode : plan.mode = .full ∨ plan.mode = .append ∨ plan.mode = .snapshot)
    (stated : loadStatements c d plan transactional = .ok statements) :
    ∃ before source applyFilter, sourceQuery c d applyFilter = .ok source ∧
      statements = before ++ [.ok (.insert (insertInto d source))] := by
  rw [loadStatements] at stated
  rcases mode with full | append | snapshot
  · rw [full] at stated
    obtain ⟨source, built, same⟩ := bind_eq_ok_iff.mp stated
    cases same
    exact ⟨[.ok (.definition (.truncate d.objectName))], source, false, built, rfl⟩
  · rw [append] at stated
    obtain ⟨source, built, same⟩ := bind_eq_ok_iff.mp stated
    cases same
    exact ⟨[], source, true, built, rfl⟩
  · rw [snapshot] at stated
    obtain ⟨source, built, same⟩ := bind_eq_ok_iff.mp stated
    cases same
    exact ⟨[], source, false, built, rfl⟩

/-- The source query of a dataset with a query tree is the query of the tree, and fills the columns
of the contract. -/
theorem sourceQuery_eq_ok_iff {c : Catalog} {d : Dataset} {root : NodeId} {applyFilter : Bool}
    {source : SourceQuery} (tree : d.queryRoot? = some root) :
    sourceQuery c d applyFilter = .ok source ↔
      c.queryGraph.inferContract c root = .ok ⟨source.columns, []⟩ ∧
      c.queryGraph.planAt (c.queryGraph.nodes.length + 1) root = .ok source.plan := by
  rw [sourceQuery, tree]
  constructor
  · intro built
    obtain ⟨k, inferred, built⟩ := bind_eq_ok_iff.mp (mapError_eq_ok_iff.mp built)
    obtain ⟨p, planned, same⟩ := bind_eq_ok_iff.mp built
    cases same
    obtain ⟨names, clean⟩ := QueryGraph.plan_eq_ok planned
    cases inferred.symm.trans clean
    refine ⟨clean, ?_⟩
    rw [QueryGraph.plan, clean] at planned
    exact planned
  · rintro ⟨clean, planned⟩
    refine mapError_eq_ok_iff.mpr (bind_eq_ok_iff.mpr ⟨_, clean, bind_eq_ok_iff.mpr ⟨_, ?_, rfl⟩⟩)
    rw [QueryGraph.plan, clean]
    exact planned

/-- When an insert pairs values and columns by name in every order of the columns in the database,
and the branches of every union in its query agree position by position: exactly if the query passes
on no table whose columns differ in name, and two branches of a union pass on the same table or none
whose columns differ in more than the case of their names. -/
theorem insert_by_position_iff {c : Catalog} {d : Dataset} {plan : LoadPlan} {transactional : Bool}
    {root : NodeId} {statements : List Planned} (tree : d.queryRoot? = some root)
    (mode : plan.mode = .full ∨ plan.mode = .append ∨ plan.mode = .snapshot)
    (stated : loadStatements c d plan transactional = .ok statements) :
    ∃ before s, statements = before ++ [.ok (.insert s)] ∧
      ((∀ physical, Reorders c.declared physical →
          s.source.outputs physical = s.columns.map some ∧ s.source.UnionsAgree physical) ↔
        OfOneName c.declared id s.source.passed? ∧
        ∀ branches ∈ s.source.unions, ∀ a ∈ branches, ∀ b ∈ branches, a.passed? = b.passed? ∨
          (OfOneName c.declared Text.asciiLower a.passed? ∧
            OfOneName c.declared Text.asciiLower b.passed?)) := by
  obtain ⟨before, source, applyFilter, built, split⟩ := exists_insert_of_loadStatements mode stated
  refine ⟨before, insertInto d source, split, ?_⟩
  obtain ⟨clean, planned⟩ := (sourceQuery_eq_ok_iff tree).mp built
  obtain ⟨passes, branchesPass⟩ := planned_passesOn planned
  have agree := unionsAgree_declared (QueryGraph.inferContract_eq _ c root ▸ clean) planned
  have returns : source.plan.outputs c.declared = source.columns.map some := by
    obtain ⟨p, planned', returns⟩ := QueryGraph.exists_planAt_of_inferContract clean
    cases planned.symm.trans planned'
    exact returns
  have aligned : (∀ physical, Reorders c.declared physical →
      source.plan.outputs physical = source.plan.outputs c.declared) ↔ _ :=
    passes.returns_declared_iff
  rw [insertInto, ← returns]
  constructor
  · intro every
    refine ⟨aligned.mp fun physical orders => (every physical orders).1, ?_⟩
    intro branches union a left b right
    have pair :=
      (branchesPass branches union a left).agree_iff (branchesPass branches union b right)
        (agree branches union a left b right)
    exact pair.mp fun physical orders => (every physical orders).2 branches union a left b right
  · intro ⟨one, either⟩ physical orders
    refine ⟨aligned.mpr one physical orders, ?_⟩
    intro branches union a left b right
    have pair :=
      (branchesPass branches union a left).agree_iff (branchesPass branches union b right)
        (agree branches union a left b right)
    exact pair.mpr (either branches union a left b right) physical orders

/-! ### A report on sales -/

/-- The sales, copied into a table of their own by the query under `root`. -/
def salesReport (root : NodeId) : Dataset :=
  { sales with
    id := 2
    schema := "mart"
    name := "report"
    materialization := .table
    inputs := [sales.key]
    sources := []
    queryRoot? := some root }

/-- Two queries for the report: all columns as they come, and each column by its name. -/
def reportNodes : List QueryNode :=
  [⟨1, none, .select (some sales.key) [] none⟩,
   ⟨2, some 1,
     .select none [⟨"id", none, none⟩, ⟨"region", none, none⟩, ⟨"amount", none, none⟩] none⟩]

def reportCatalog (root : NodeId) : Catalog where
  schemas := [⟨"raw", .raw, false, false, true⟩, ⟨"mart", .serving, false, false, true⟩]
  datasets := [sales, salesReport root]
  queryNodes := reportNodes

private theorem inferAt_report (root : NodeId) (fuel : Nat) (path : List NodeId)
    (fresh : 1 ∉ path) :
    (reportCatalog root).queryGraph.inferAt (reportCatalog root) (fuel + 1) path 1 =
      .ok ⟨["id", "region", "amount"], []⟩ :=
  QueryGraph.inferAt_of_inferredNode fresh rfl (.select rfl .none)
    (selectContract_sales rfl 1)

/-- The query that takes all columns as they come. -/
def passedSales : SourceQuery where
  columns := ["id", "region", "amount"]
  plan := .select (selectPlan (some (.table ⟨sales.objectName, none⟩)) [] none)

/-- The query that names its columns. -/
def listedSales : SourceQuery where
  columns := ["id", "region", "amount"]
  plan := .select (selectPlan (some (nodeSource 1 passedSales.plan))
    [⟨"id", none, none⟩, ⟨"region", none, none⟩, ⟨"amount", none, none⟩] none)

private theorem sourceQuery_passedSales (applyFilter : Bool) :
    sourceQuery (reportCatalog 1) (salesReport 1) applyFilter = .ok passedSales :=
  (sourceQuery_eq_ok_iff rfl).mpr
    ⟨QueryGraph.inferContract_of_inferAt (Nat.le_refl 3) (inferAt_report 1 2 [] (by decide)), rfl⟩

private theorem sourceQuery_listedSales (applyFilter : Bool) :
    sourceQuery (reportCatalog 2) (salesReport 2) applyFilter = .ok listedSales := by
  have listed : (reportCatalog 2).queryGraph.inferAt (reportCatalog 2) 3 [] 2 =
      .ok ⟨["id", "region", "amount"], []⟩ :=
    QueryGraph.inferAt_of_inferredNode (by decide) rfl
      (.select rfl (.some (inferAt_report 2 1 _ (by decide)))) rfl
  exact (sourceQuery_eq_ok_iff rfl).mpr
    ⟨QueryGraph.inferContract_of_inferAt (Nat.le_refl 3) listed, rfl⟩

/-- The report whose query names its columns is filled by name in every order of the columns. -/
theorem listed_report_by_position :
    ∃ before s, loadStatements (reportCatalog 2) (salesReport 2)
      ⟨(salesReport 2).key, .full, false, false⟩ true =
        .ok (before ++ [.ok (.insert s)]) ∧
      ∀ physical, Reorders (reportCatalog 2).declared physical →
        s.source.outputs physical = s.columns.map some ∧ s.source.UnionsAgree physical := by
  have stated : loadStatements (reportCatalog 2) (salesReport 2)
    ⟨(salesReport 2).key, .full, false, false⟩ true =
      .ok [.ok (.definition (.truncate (salesReport 2).objectName)),
        .ok (.insert (insertInto (salesReport 2) listedSales))] := by
    rw [loadStatements, sourceQuery_listedSales]
    rfl
  obtain ⟨before, s, split, exactly⟩ := insert_by_position_iff rfl (.inl rfl) stated
  refine ⟨before, s, by rw [stated, split], exactly.mpr ?_⟩
  have last : insertInto (salesReport 2) listedSales = s := by
    simpa using congrArg List.getLast? split
  cases last
  -- The query names every column, so it passes on no table, and there is no union in it.
  constructor
  · intro t passed
    cases passed
  · intro branches union
    cases union

/-- The sales as they were before regions were recorded. -/
def olderSales : LiveSchema :=
  LiveSchema.empty.withTable "raw" "sales"
    [⟨"id", "bigint", true⟩, ⟨"amount", "decimal(18,2)", true⟩]

/-- The order in which the columns stand once the region has been added. -/
def grownOrder : Layout :=
  Function.update (reportCatalog 1).declared sales.objectName ["id", "amount", "region"]

/-- The report whose query takes the columns as they come puts amounts into regions, and regions
into amounts, once the region has been added to the table of sales: there it stands last, in the
catalog between the others. -/
theorem not_always_by_position :
    (composeLoad (reportCatalog 1) (salesReport 1).key .postgres true).map LoadSql.statements =
        .ok ["TRUNCATE TABLE \"mart\".\"report\"",
          "INSERT INTO \"mart\".\"report\" (\"id\", \"region\", \"amount\")\nSELECT *\nFROM \"raw\".\"sales\""] ∧
      Reorders (reportCatalog 1).declared grownOrder ∧
      ((afterSteps? .postgres olderSales (planDrift sales olderSales .postgres {}).steps).map
        fun after =>
        (after.columns sales.schema sales.name).map LiveColumn.name) =
          some (grownOrder sales.objectName) ∧
      ∃ before s, loadStatements (reportCatalog 1) (salesReport 1)
        ⟨(salesReport 1).key, .full, false, false⟩ true =
          .ok (before ++ [.ok (.insert s)]) ∧
        s.columns = ["id", "region", "amount"] ∧
        s.source.outputs grownOrder = [some "id", some "amount", some "region"] := by
  have declared : (reportCatalog 1).declared sales.objectName = ["id", "region", "amount"] := by
    show sales.orderedColumns.map Column.name = _
    rw [orderedColumns_sales]
    rfl
  have stated : loadStatements (reportCatalog 1) (salesReport 1)
      ⟨(salesReport 1).key, .full, false, false⟩ true =
      .ok [.ok (.definition (.truncate (salesReport 1).objectName)),
        .ok (.insert (insertInto (salesReport 1) passedSales))] := by
    rw [loadStatements, sourceQuery_passedSales]
    rfl
  refine ⟨?_, ?_, ?_, [.ok (.definition (.truncate (salesReport 1).objectName))], ?_⟩
  · exact congrArg (Except.map LoadSql.statements)
      (composeLoad_of_parts rfl rfl rfl stated (by decide +kernel))
  · intro t
    by_cases same : t = sales.objectName
    · rw [same, declared, grownOrder, Function.update_self]
      decide
    · rw [grownOrder, Function.update_of_ne same]
  · have grown : (planDrift sales olderSales .postgres {}).steps =
        [.addColumn "raw" "sales" ⟨"region", .varchar 50, true⟩] := by
      simp only [planDrift, planColumns, orderedColumns_sales]
      decide +kernel
    rw [grown, grownOrder, Function.update_self]
    decide +kernel
  · refine ⟨insertInto (salesReport 1) passedSales, stated, rfl, ?_⟩
    rw [insertInto, passedSales, Plan.outputs, selectPlan_outputs]
    simp [Source.outputs?, grownOrder]

end Warehouse
