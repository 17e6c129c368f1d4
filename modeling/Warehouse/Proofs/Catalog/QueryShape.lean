/-
Module: Warehouse.Proofs.Catalog.QueryShape
Purpose: What the names in a query tree can do to its SQL. Two trees that differ in names only are
  written as texts of the same tokens, name for name, since every name is quoted on its way into the
  text. A column that is renamed is written with an alias and one that is not without, so the trees
  must agree on that. The function of a measure is the one text that is neither quoted nor looked
  at: where it is not a plain word it can add columns to the query.
Trusted boundary: none
Main exports: NodeKind.SameShape, QueryGraph.SameShape, QueryGraph.sameShape_of_nodes, Plan.Alike,
  Plan.Alike.tokens, alike_planAt, same_kinds_of_same_shape, not_always_same_kinds
-/
import Warehouse.Proofs.Catalog.QueryOutputs
import Warehouse.Proofs.Catalog.QueryReads
import Warehouse.Proofs.Lists
import Warehouse.Proofs.Sql.Faults
import Warehouse.Proofs.Sql.Lexing

namespace Warehouse

open Sql

/-! ### Trees that differ in names

Two trees have one shape if their nodes are of the same kinds, place by place, over as many columns,
groups and measures. What may differ are names. What may not is whether a column is renamed, for
that is written, and of a measure whether it counts rows or a column. -/

/-- Projected columns without an expression that agree on whether the column has its source's very
name. -/
structure ProjectedColumn.SameShape (c c' : ProjectedColumn) : Prop where
  plain : c.expr? = none
  plain' : c'.expr? = none
  renames : c.source = c.name ↔ c'.source = c'.name

/-- Measures over a column each or over all rows, with functions that are plain words each. -/
structure Measure.SameShape (d : Dialect) (m m' : Measure) : Prop where
  column : m.column?.isSome = m'.column?.isSome
  plain : PlainFunction d m.function
  plain' : PlainFunction d m'.function

/-- Windows over as many columns, in the same direction. -/
structure WindowColumn.SameShape (w w' : WindowColumn) : Prop where
  partitionBy : w.partitionBy.length = w'.partitionBy.length
  orderBy : w.orderBy.length = w'.orderBy.length
  descending : w.descending = w'.descending

/-- Nodes that do the same under other names. -/
inductive NodeKind.SameShape (d : Dialect) : NodeKind → NodeKind → Prop where
  | select (dataset? : Option DatasetKey) {columns columns' : List ProjectedColumn}
      (each : List.Forall₂ ProjectedColumn.SameShape columns columns') :
      SameShape d (.select dataset? columns none) (.select dataset? columns' none)
  | aggregate {groupKeys groupKeys' : List String} {measures measures' : List Measure}
      (keys : groupKeys.length = groupKeys'.length)
      (each : List.Forall₂ (Measure.SameShape d) measures measures') :
      SameShape d (.aggregate groupKeys measures) (.aggregate groupKeys' measures')
  | union (branches : List NodeId) (all : Bool) :
    SameShape d (.union branches all) (.union branches all)
  | window {columns columns' : List WindowColumn}
    (each : List.Forall₂ WindowColumn.SameShape columns columns') :
      SameShape d (.window columns) (.window columns')

/-- Nodes with the same input that do the same under other names. -/
structure QueryNode.SameShape (d : Dialect) (n n' : QueryNode) : Prop where
  inputs : n.input? = n'.input?
  kinds : n.kind.SameShape d n'.kind

/-- The nodes of the two trees under `root` are the same but for names. -/
def QueryGraph.SameShape (d : Dialect) (g g' : QueryGraph) (root : NodeId) : Prop :=
  ∀ id, Relation.ReflTransGen (fun parent child => child ∈ g.childrenOf parent) root id →
    ∀ n n', g.node? id = some n → g'.node? id = some n' → n.SameShape d n'

/-- Nodes that are the same one by one, numbers included, make trees of one shape under every
root. -/
theorem QueryGraph.sameShape_of_nodes {d : Dialect} {g g' : QueryGraph} {root : NodeId}
    (each : List.Forall₂ (fun n n' => n.id = n'.id ∧ n.SameShape d n') g.nodes g'.nodes) :
    g.SameShape d g' root := by
  intro id _ n n' node node'
  have backwards := List.forall₂_reverse_iff.mpr each
  rw [node?] at node node'
  generalize g.nodes.reverse = ns, g'.nodes.reverse = ns' at backwards node node'
  -- Both look for the last node of that number, and the numbers are the same place by place.
  induction backwards with
  | nil => cases node
  | @cons m m' _ _ same _ ih =>
    rw [List.find?_cons] at node node'
    rw [← same.1] at node'
    by_cases found : m.id = id
    · simp only [found, decide_true, Option.some.injEq] at node node'
      subst node node'
      exact same.2
    · simp only [found, decide_false] at node node'
      exact ih node node'

namespace Sql

/-! ### Expressions and clauses -/

/-- Two optional sources are written as the same tokens, or fail alike. -/
def SourcesAlike (d : Dialect) (s s' : Option Source) : Prop :=
  SameOutcome (Option.Rel (SameKinds d)) (Source.tokensOfOption d s) (Source.tokensOfOption d s')

/-- Columns are, one by one, written as the same tokens, or fail alike. -/
def ItemsAlike (d : Dialect) : List SelectItem → List SelectItem → Prop :=
  List.Forall₂ fun i i' => SameOutcome (SameKinds d) (i.tokens d) (i'.tokens d)

/-- Columns that are made in the same way of what is alike are alike. -/
theorem ItemsAlike.map {d : Dialect} {α : Type} {same : α → α → Prop} {f : α → SelectItem}
    {xs ys : List α} (each : List.Forall₂ same xs ys)
    (alike : ∀ x y, same x y → SameOutcome (SameKinds d) ((f x).tokens d) ((f y).tokens d)) :
    ItemsAlike d (xs.map f) (ys.map f) := by
  rw [ItemsAlike, List.forall₂_map_left_iff, List.forall₂_map_right_iff]
  exact each.imp alike

section

variable {d : Dialect} {ts ts' : List Token}

/-- An alias is quoted, so it does not matter which it is. -/
theorem SameKinds.aliased (alike : SameKinds d ts ts') (name name' : String) :
    SameKinds d (ts ++ [.space, word .as, .space, .name name])
      (ts' ++ [.space, word .as, .space, .name name']) :=
  alike.append rfl ((SameKinds.keyword .as).append rfl (.name name name'))

/-- A clause on a new line. -/
theorem SameKinds.clause {s s' : List Token} (alike : SameKinds d s s') (k : Keyword)
    (body : SameKinds d ts ts') :
    SameKinds d (s ++ .newline :: word k :: .space :: ts)
      (s' ++ .newline :: word k :: .space :: ts') :=
  alike.append rfl ((SameKinds.keyword k).append rfl body)

private theorem Expr.tokensOfAll_cols (names : List String) :
    Expr.tokensOfAll d (names.map Expr.col) = .ok (names.map fun n => [.name n]) := by
  induction names with
  | nil => rfl
  | cons n names ih =>
    rw [List.map_cons, Expr.tokensOfAll, ih]
    rfl

private theorem SortKey.tokensOfAll_cols (names : List String) (descending : Bool) :
    SortKey.tokensOfAll d (names.map fun n => ⟨.col n, descending⟩) =
      .ok (names.map fun n => [.name n, .space, word (if descending then .desc else .asc)]) := by
  induction names with
  | nil => rfl
  | cons n names ih =>
    rw [List.map_cons, SortKey.tokensOfAll, ih]
    rfl

private theorem isEmpty_eq_of_length_eq {α β : Type} {xs : List α} {ys : List β}
    (same : xs.length = ys.length) : xs.isEmpty = ys.isEmpty :=
  match xs, ys, same with
  | [], [], _ | _ :: _, _ :: _, _ => rfl

private theorem alike_names {names names' : List String} (same : names.length = names'.length) :
    List.Forall₂ (SameKinds d) (names.map fun n => [.name n]) (names'.map fun n => [.name n]) :=
  forall₂_map_of_length_eq .name same

/-- The one function that a window calls is written as one word in every dialect. -/
theorem functionsAlike_rowNumber : FunctionsAlike d "ROW_NUMBER" "ROW_NUMBER" :=
  have plain : PlainFunction d "ROW_NUMBER" := by cases d <;> decide +kernel
  plain.alike plain

/-- The clauses between the parentheses behind `OVER`. -/
theorem alike_over {partition partition' order order' : List Token} (noPartition noOrder : Bool)
    (groups : SameKinds d partition partition') (keys : SameKinds d order order') :
    SameKinds d
      ((if noPartition then [] else word .partitionBy :: Token.space :: partition) ++
        (if noPartition || noOrder then [] else [Token.space]) ++
        (if noOrder then [] else word .orderBy :: Token.space :: order))
      ((if noPartition then [] else word .partitionBy :: Token.space :: partition') ++
        (if noPartition || noOrder then [] else [Token.space]) ++
        (if noOrder then [] else word .orderBy :: Token.space :: order')) := by
  have partitions := (SameKinds.keyword (d := d) .partitionBy).append (t := .space) rfl groups
  have orders := (SameKinds.keyword (d := d) .orderBy).append (t := .space) rfl keys
  cases noPartition <;> cases noOrder
  · simpa using partitions.append (t := .space) rfl orders
  · simpa using partitions
  · exact orders
  · exact .nil

private theorem alike_qualified (schema name : String) :
    SameKinds d [.qualified (some schema) name] [.qualified (some schema) name] := by
  have apart :
      SameKinds d ([.name schema] ++ sign .dot :: [.name name])
        ([.name schema] ++ sign .dot :: [.name name]) :=
    (SameKinds.name schema schema).append rfl (.name name name)
  have same : render d ([.name schema] ++ sign .dot :: [.name name]) =
      render d [.qualified (some schema) name] := by
    simp [render, Token.text, Symbol.text, String.append_assoc]
  obtain ⟨kinds, reads, -⟩ := apart
  rw [LexesTo, same] at reads
  exact ⟨kinds, reads, reads⟩

private theorem alike_aliasTokens (alike : SameKinds d ts ts') (name : String) :
    SameKinds d (ts ++ d.aliasTokens name) (ts' ++ d.aliasTokens name) := by
  rw [Dialect.aliasTokens]
  cases d.tableAliasKeyword
  · exact alike.append rfl (.name name name)
  · exact alike.aliased name name

private theorem alike_table (key : DatasetKey) :
    SourcesAlike d (some (.table ⟨key.objectName, none⟩)) (some (.table ⟨key.objectName, none⟩)) :=
  .ok (.some (alike_qualified key.schema key.name))

/-! ### Queries -/

/-- Queries of the same form whose `SELECT`s are written as the same tokens, or fail alike. -/
inductive Plan.Alike (d : Dialect) : Plan → Plan → Prop where
  | select {s s' : Select} (same : SameOutcome (SameKinds d) (s.tokens d) (s'.tokens d)) :
      Plan.Alike d (.select s) (.select s')
  | union {ss ss' : List Select} (mode : UnionMode)
      (each : List.Forall₂
        (fun s s' => SameOutcome (SameKinds d) (s.tokens d) (s'.tokens d)) ss ss') :
      Plan.Alike d (.union ss mode) (.union ss' mode)

/-- Plans of one form are written as the same kinds of tokens, or fail alike. -/
theorem Plan.Alike.tokens {p p' : Plan} (alike : p.Alike d p') :
    SameOutcome (SameKinds d) (p.tokens d) (p'.tokens d) := by
  cases alike with
  | select same => exact same
  | @union ss ss' mode each =>
    simp only [Plan.tokens, isEmpty_eq_of_length_eq each.length_eq, Select.tokensOfAll_eq]
    split
    · exact .error _
    · refine (SameOutcome.mapM each).bind fun parts parts' same => .ok ?_
      refine SameKinds.intersperse rfl (fun {ts ts'} alike => ?_) same
      have words (between : List Token) (known : SameKinds d between between) :
          SameKinds d (between ++ [Token.newline] ++ ts) (between ++ [Token.newline] ++ ts') := by
        simpa using known.append (t := .newline) rfl alike
      cases mode with
      | all => exact words _ ((SameKinds.keyword .union).append (t := .space) rfl (.keyword .all))
      | distinct => exact words _ (.words (by cases d <;> decide +kernel))

private theorem alike_subquery {p p' : Plan} (alike : p.Alike d p') (name : String) :
    SourcesAlike d (some (.subquery p name)) (some (.subquery p' name)) := by
  have written : SameOutcome (SameKinds d) ((Source.subquery p name).tokens d)
      ((Source.subquery p' name).tokens d) :=
    alike.tokens.bind fun inner inner' same => .ok (alike_aliasTokens
      (.parenthesised (.gap_cons rfl (same.append (t := .newline) rfl .nil))) name)
  exact written.bind fun _ _ same => .ok (.some same)

/-- A `SELECT` of columns that are written alike. -/
theorem alike_select {items items' : List SelectItem} {source? source?' : Option Source}
    {keys keys' : List String} (each : ItemsAlike d items items')
    (source : SourcesAlike d source? source?') (groups : keys.length = keys'.length) :
    SameOutcome (SameKinds d) (Select.tokens d ⟨false, items, source?, none, keys.map Expr.col⟩)
      (Select.tokens d ⟨false, items', source?', none, keys'.map Expr.col⟩) := by
  have noKeys : (keys.map Expr.col).isEmpty = (keys'.map Expr.col).isEmpty :=
    isEmpty_eq_of_length_eq (by simpa using groups)
  rw [Select.tokens, Select.tokens, isEmpty_eq_of_length_eq each.length_eq, Expr.tokensOfAll_cols,
    Expr.tokensOfAll_cols, SelectItem.tokensOfAll_eq, SelectItem.tokensOfAll_eq, noKeys]
  split
  · exact .error _
  · refine (SameOutcome.mapM each).bind fun columns columns' listed =>
      source.bind fun table table' sources => .ok ?_
    have selected := SameKinds.commaSeparated listed
    have sourced : SameKinds d
        (commaSeparated columns ++
          (table.map fun body => Token.newline :: word .from :: Token.space :: body).getD [])
        (commaSeparated columns' ++
          (table'.map fun body => Token.newline :: word .from :: Token.space :: body).getD []) := by
      cases sources with
      | none => simpa using selected
      | some same => exact selected.clause .from same
    have grouped := sourced.clause .groupBy (.commaSeparated (alike_names groups))
    refine (SameKinds.keyword .select).append (t := .space) rfl ?_
    generalize (keys'.map Expr.col).isEmpty = empty
    cases empty
    · simpa using grouped
    · simpa using sourced

end

end Sql

open Sql

section

variable {d : Dialect}

/-- A projected column is written alike if it is renamed in both trees or in neither. -/
theorem alike_projectedItem {c c' : ProjectedColumn} (same : c.SameShape c') :
    SameOutcome (SameKinds d) ((projectedItem c).tokens d) ((projectedItem c').tokens d) := by
  obtain ⟨plain, plain', renames⟩ := same
  simp only [projectedItem, plain, plain', renames]
  split
  · exact .ok (.name c.name c'.name)
  · exact .ok ((SameKinds.name c.source c'.source).aliased c.name c'.name)

/-- A measure is written alike if its function is a plain word in both trees. -/
theorem alike_measureItem {m m' : Measure} (same : m.SameShape d m') :
    SameOutcome (SameKinds d) ((measureItem m).tokens d) ((measureItem m').tokens d) := by
  obtain ⟨column, plain, plain'⟩ := same
  obtain ⟨name, function, column?⟩ := m
  obtain ⟨name', function', column?'⟩ := m'
  have called {arg arg' : List Token} (alike : SameKinds d arg arg') :
      SameKinds d (.function function :: parenthesised (commaSeparated [arg]) ++
        [.space, word .as, .space, .name name])
        (.function function' :: parenthesised (commaSeparated [arg']) ++
          [.space, word .as, .space, .name name']) :=
    .aliased (.call (plain.alike plain') (.append (.commaSeparated (.cons alike .nil)) rfl .nil))
      name name'
  cases column? <;> cases column?' <;> cases column
  · exact .ok (called (.gap_cons rfl .nil))
  · next c c' => exact .ok (called (.name c c'))

/-- A window is written alike if as many columns stand in its clauses. -/
theorem alike_windowItem {w w' : WindowColumn} (same : w.SameShape w') :
    SameOutcome (SameKinds d) ((windowItem w).tokens d) ((windowItem w').tokens d) := by
  obtain ⟨name, partitionBy, orderBy, descending⟩ := w
  obtain ⟨name', partitionBy', orderBy', descending'⟩ := w'
  obtain ⟨partitions, orders, rfl⟩ : partitionBy.length = partitionBy'.length ∧
    orderBy.length = orderBy'.length ∧ descending = descending' := ⟨same.1, same.2, same.3⟩
  have noPartition : (partitionBy.map Expr.col).isEmpty = (partitionBy'.map Expr.col).isEmpty :=
    isEmpty_eq_of_length_eq (by simpa using partitions)
  have noOrder : (orderBy.map fun c => (⟨.col c, descending⟩ : SortKey)).isEmpty =
      (orderBy'.map fun c => (⟨.col c, descending⟩ : SortKey)).isEmpty :=
    isEmpty_eq_of_length_eq (by simpa using orders)
  have keys : List.Forall₂ (SameKinds d)
      (orderBy.map fun n => [.name n, .space, word (if descending then .desc else .asc)])
      (orderBy'.map fun n => [.name n, .space, word (if descending then .desc else .asc)]) :=
    forall₂_map_of_length_eq
      (fun n n' => (SameKinds.name n n').append (t := .space) rfl (.keyword _)) orders
  have clauses := alike_over (partitionBy'.map Expr.col).isEmpty
    (orderBy'.map fun c => (⟨.col c, descending⟩ : SortKey)).isEmpty
    (.commaSeparated (alike_names partitions)) (.commaSeparated keys)
  have numbered : SameKinds d (sign .close :: Token.space :: word .over :: Token.space :: _)
      (sign .close :: Token.space :: word .over :: Token.space :: _) :=
    .gap_cons rfl
      (.gap_cons rfl ((SameKinds.keyword .over).append (t := .space) rfl clauses.parenthesised))
  simp only [windowItem, SelectItem.tokens, Expr.tokens, Expr.tokensOfAll_cols,
    SortKey.tokensOfAll_cols, noOrder, noPartition]
  split
  · exact .error _
  · exact .ok ((SameKinds.call functionsAlike_rowNumber numbered).aliased name name')

/-! ### Trees -/

private theorem alike_unionBranch {p p' : Plan} (alike : p.Alike d p') (branch : NodeId) :
    SameOutcome (SameKinds d) ((unionBranch branch p).tokens d)
      ((unionBranch branch p').tokens d) := by
  cases alike with
  | select same => exact same
  | union mode each =>
    have star : SameOutcome (SameKinds d) ((⟨.star none, none⟩ : SelectItem).tokens d)
        ((⟨.star none, none⟩ : SelectItem).tokens d) := .ok (.gap_cons rfl .nil)
    exact @alike_select d _ _ _ _ [] [] (.cons star .nil)
      (alike_subquery (.union mode each) (nodeAlias branch)) rfl

namespace QueryGraph

variable {g g' : QueryGraph}

private theorem alike_nodeSource {p p' : Plan} (alike : p.Alike d p') (input : NodeId) :
    SourcesAlike d (some (nodeSource input p)) (some (nodeSource input p')) :=
  alike_subquery alike (nodeAlias input)

private theorem alike_selectPlan {source? source?' : Option Source}
    {columns columns' : List ProjectedColumn} (source : SourcesAlike d source? source?')
    (each : List.Forall₂ ProjectedColumn.SameShape columns columns') :
    Plan.Alike d (.select (selectPlan source? columns none))
      (.select (selectPlan source?' columns' none)) := by
  have items : ItemsAlike d (selectPlan source? columns none).items
      (selectPlan source?' columns' none).items := by
    simp only [selectPlan, isEmpty_eq_of_length_eq each.length_eq]
    split
    · exact .cons (.ok (.gap_cons rfl .nil)) .nil
    · exact .map each fun _ _ => alike_projectedItem
  exact .select (@alike_select d _ _ _ _ [] [] items source rfl)

private theorem alike_aggregatePlan {source source' : Source} {groupKeys groupKeys' : List String}
    {measures measures' : List Measure} (sources : SourcesAlike d (some source) (some source'))
    (keys : groupKeys.length = groupKeys'.length)
    (each : List.Forall₂ (Measure.SameShape d) measures measures') :
    Plan.Alike d (.select (aggregatePlan source groupKeys measures))
      (.select (aggregatePlan source' groupKeys' measures')) := by
  have columns : ItemsAlike d (groupKeys.map fun k => ⟨.col k, none⟩)
      (groupKeys'.map fun k => ⟨.col k, none⟩) :=
    forall₂_map_of_length_eq (fun k k' => .ok (.name k k')) keys
  have aggregates : ItemsAlike d (measures.map measureItem) (measures'.map measureItem) :=
    .map each fun _ _ => alike_measureItem
  exact .select (alike_select (List.rel_append columns aggregates) sources keys)

private theorem alike_windowPlan {source source' : Source} {columns columns' : List WindowColumn}
    (input : NodeId) (sources : SourcesAlike d (some source) (some source'))
    (each : List.Forall₂ WindowColumn.SameShape columns columns') :
    Plan.Alike d (.select (windowPlan input source columns))
      (.select (windowPlan input source' columns')) := by
  have star : SameKinds d ([.name (nodeAlias input)] ++ sign .dot :: [sign .star])
      ([.name (nodeAlias input)] ++ sign .dot :: [sign .star]) :=
    (SameKinds.name _ _).append rfl (.gap_cons rfl .nil)
  have windows : ItemsAlike d (columns.map windowItem) (columns'.map windowItem) :=
    .map each fun _ _ => alike_windowItem
  exact .select (@alike_select d _ _ _ _ [] [] (.cons (.ok star) windows) sources rfl)

/-- Plans of nodes of one shape are of one form and are written alike. -/
theorem alike_planAt {fuel fuel' : Nat} {id : NodeId} (shape : g.SameShape d g' id) :
    WhenOk (Plan.Alike d) (g.planAt fuel id) (g'.planAt fuel' id) := by
  induction fuel generalizing fuel' id with
  | zero => exact .error_left
  | succ fuel ih =>
    cases fuel' with
    | zero => exact .error_right
    | succ fuel' =>
      have nodes : WhenOk (fun n n' => g.node? id = some n ∧ g'.node? id = some n') (g.node id)
          (g'.node id) :=
        fun n n' node node' => ⟨node_eq_ok_iff.mp node, node_eq_ok_iff.mp node'⟩
      rw [planAt, planAt]
      refine nodes.bind ?_
      rintro n n' ⟨node, node'⟩
      obtain ⟨inputs, kinds⟩ := shape id .refl n n' node node'
      have below {child : NodeId} (reads : child ∈ n.children) :
          WhenOk (Plan.Alike d) (g.planAt fuel child) (g'.planAt fuel' child) := by
        refine ih fun id' reached => shape id' (reached.head ?_)
        rw [childrenOf, node]
        exact reads
      have source {input : NodeId} (reads : n.input? = some input) :
          WhenOk (fun s s' => SourcesAlike d (some s) (some s'))
            (do return nodeSource input (← g.planAt fuel input))
            (do return nodeSource input (← g'.planAt fuel' input)) :=
        (below (mem_children_of_input reads)).bind fun _ _ alike =>
          .ok (alike_nodeSource alike input)
      dsimp only
      rw [← inputs]
      generalize kind : n.kind = k at kinds
      generalize n'.kind = k' at kinds
      cases kinds with
      | select dataset? each =>
        cases reads : n.input? with
        | some input =>
          exact (source reads).bind fun _ _ alike => .ok (alike_selectPlan alike each)
        | none =>
          cases dataset? with
          | some key => exact .ok (alike_selectPlan (alike_table key) each)
          | none => exact .ok (alike_selectPlan (.ok .none) each)
      | aggregate keys each =>
        cases reads : n.input? with
        | some input =>
          exact (source reads).bind fun _ _ alike => .ok (alike_aggregatePlan alike keys each)
        | none => exact .error_left
      | union branches all =>
        have each : List.Forall₂
            (fun branch branch' =>
              WhenOk (fun s s' => SameOutcome (SameKinds d) (s.tokens d) (s'.tokens d))
              (do return unionBranch branch (← g.planAt fuel branch))
              (do return unionBranch branch' (← g'.planAt fuel' branch'))) branches branches := by
          refine List.forall₂_same.mpr fun branch member => ?_
          exact (below (mem_children_of_branch kind member)).bind fun _ _ alike =>
            .ok (alike_unionBranch alike branch)
        exact (WhenOk.mapM each).bind fun _ _ alike => .ok (.union _ alike)
      | window each =>
        cases reads : n.input? with
        | some input =>
          exact (source reads).bind fun _ _ alike => .ok (alike_windowPlan input alike each)
        | none => exact .error_left

private theorem planAt_of_plan {catalog : Catalog} {root : NodeId} {p : Plan}
    (planned : g.plan catalog root = .ok p) : g.planAt (g.nodes.length + 1) root = .ok p := by
  obtain ⟨contract, -, rest⟩ := bind_eq_ok_iff.mp planned
  split at rest
  · cases rest
  · exact rest

end QueryGraph

/-- Names cannot change the shape of the SQL. Two trees that are the same but for names, and that
agree on which columns keep the name of their source, are written as texts of the same kinds of
tokens wherever both have a plan, provided that the functions of their measures are plain words; and
one of them cannot be written exactly if the other cannot. -/
theorem same_kinds_of_same_shape {g g' : QueryGraph} {catalog catalog' : Catalog} {root : NodeId}
    {p p' : Plan} (shape : g.SameShape d g' root) (planned : g.plan catalog root = .ok p)
    (planned' : g'.plan catalog' root = .ok p') :
    (p.sql d).map (fun sql => lex d sql.toList) = (p'.sql d).map fun sql => lex d sql.toList := by
  have alike : p.Alike d p' :=
    QueryGraph.alike_planAt shape p p' (QueryGraph.planAt_of_plan planned)
      (QueryGraph.planAt_of_plan planned')
  have written : SameOutcome (fun sql sql' : String => lex d sql.toList = lex d sql'.toList)
      (p.sql d) (p'.sql d) :=
    alike.tokens.bind fun _ _ same => .ok same.lex_eq
  exact written.map_eq fun _ _ same => same

end

/-- The sales under a label each, one measure of the amounts for each label, and the labels ranked
by it. -/
def rankedSales (label source measure function place : String) : QueryGraph :=
  ⟨[⟨1, none, .select (some sales.key) [] none⟩,
    ⟨2, some 1, .select none [⟨label, some source, none⟩, ⟨"amount", none, none⟩] none⟩,
    ⟨3, some 2, .aggregate [label] [⟨measure, function, some "amount"⟩]⟩,
    ⟨4, some 3, .window [⟨place, [], [measure], true⟩]⟩]⟩

/-- The ranking has a plan under all names of which the contracts are as they should be. -/
theorem exists_plan_rankedSales {label source measure function place : String}
    (labels : selectContract salesCatalog 2 (some ⟨["id", "region", "amount"], []⟩) none
      [⟨label, some source, none⟩, ⟨"amount", none, none⟩] = ⟨[label, "amount"], []⟩)
    (measures : aggregateContract 3 ⟨[label, "amount"], []⟩ [label]
      [⟨measure, function, some "amount"⟩] = ⟨[label, measure], []⟩)
    (ranks : windowContract 4 ⟨[label, measure], []⟩ [⟨place, [], [measure], true⟩] =
      ⟨[label, measure, place], []⟩) :
    ∃ p, (rankedSales label source measure function place).plan salesCatalog 4 = .ok p := by
  have read : (rankedSales label source measure function place).inferAt salesCatalog 2 [2, 3, 4] 1 =
      .ok ⟨["id", "region", "amount"], []⟩ :=
    QueryGraph.inferAt_of_inferredNode (by decide) rfl (.select rfl .none)
      (selectContract_sales rfl 1)
  have labelled :
    (rankedSales label source measure function place).inferAt salesCatalog 3 [3, 4] 2 =
      .ok ⟨[label, "amount"], []⟩ :=
    QueryGraph.inferAt_of_inferredNode (by decide) rfl (.select rfl (.some read)) labels
  have measured : (rankedSales label source measure function place).inferAt salesCatalog 4 [4] 3 =
      .ok ⟨[label, measure], []⟩ :=
    QueryGraph.inferAt_of_inferredNode (by decide) rfl (.aggregate rfl (.some labelled)) measures
  refine QueryGraph.exists_plan_iff.mpr ⟨[label, measure, place], ?_⟩
  rw [QueryGraph.inferContract_eq]
  exact QueryGraph.inferAt_of_inferredNode (by decide) rfl (.window rfl (.some measured)) ranks

private theorem sameShape_rankedSales {d : Dialect} {label source measure function place : String}
    {label' source' measure' function' place' : String}
    (renames : source = label ↔ source' = label') (plain : PlainFunction d function)
    (plain' : PlainFunction d function') :
    (rankedSales label source measure function place).SameShape d
      (rankedSales label' source' measure' function' place') 4 := by
  have amounts : ProjectedColumn.SameShape ⟨"amount", none, none⟩ ⟨"amount", none, none⟩ :=
    ⟨rfl, rfl, .rfl⟩
  refine QueryGraph.sameShape_of_nodes
    (.cons ⟨rfl, rfl, .select _ .nil⟩ (.cons ⟨rfl, rfl, .select _ ?_⟩
    (.cons ⟨rfl, rfl, .aggregate rfl ?_⟩ (.cons ⟨rfl, rfl, .window ?_⟩ .nil))))
  · exact .cons ⟨rfl, rfl, renames⟩ (.cons amounts .nil)
  · exact .cons ⟨rfl, plain, plain'⟩ .nil
  · exact .cons ⟨rfl, rfl, rfl⟩ .nil

/-- Even names that look like SQL leave the ranking as it is. -/
theorem same_kinds_of_rankedSales :
    ∃ p p', (rankedSales "area" "region" "total" "sum" "place").plan salesCatalog 4 = .ok p ∧
      (rankedSales "x\" FROM \"y" "id" "; DROP TABLE" "max" "--").plan salesCatalog 4 = .ok p' ∧
      (p.sql .duckdb).map (fun sql => lex .duckdb sql.toList) =
        (p'.sql .duckdb).map fun sql => lex .duckdb sql.toList := by
  obtain ⟨p, planned⟩ := @exists_plan_rankedSales "area" "region" "total" "sum" "place" rfl rfl rfl
  obtain ⟨p', planned'⟩ :=
    @exists_plan_rankedSales "x\" FROM \"y" "id" "; DROP TABLE" "max" "--" rfl rfl rfl
  have plain : PlainFunction .duckdb "sum" := by decide +kernel
  have plain' : PlainFunction .duckdb "max" := by decide +kernel
  exact ⟨p, p', planned, planned',
    same_kinds_of_same_shape (sameShape_rankedSales (by decide) plain plain') planned planned'⟩

/-! ### Where names do change the shape

The function of a measure is the one text of a tree that is neither quoted nor compared with a list
of names, so a text with parentheses of its own is more than a name. An alias, on the other hand, is
added on purpose where a column is to keep its declared spelling. -/

/-- One measure of the amounts for each region. -/
def measuredSales (function : String) : QueryGraph :=
  ⟨[⟨1, none, .select (some sales.key) [] none⟩,
    ⟨2, some 1, .aggregate ["region"] [⟨"total", function, some "amount"⟩]⟩]⟩

/-- The query of that measure. -/
def measuredSalesPlan (function : String) : Plan :=
  .select (aggregatePlan (nodeSource 1 (.select (selectPlan
    (some (.table ⟨sales.key.objectName, none⟩)) [] none))) ["region"]
      [⟨"total", function, some "amount"⟩])

/-- The measure has this plan whatever its function is, if the contract is as it should be. -/
theorem plan_measuredSales {function : String}
    (measures : aggregateContract 2 ⟨["id", "region", "amount"], []⟩ ["region"]
      [⟨"total", function, some "amount"⟩] = ⟨["region", "total"], []⟩) :
    (measuredSales function).plan salesCatalog 2 = .ok (measuredSalesPlan function) := by
  have read : (measuredSales function).inferAt salesCatalog 2 [2] 1 =
      .ok ⟨["id", "region", "amount"], []⟩ :=
    QueryGraph.inferAt_of_inferredNode (by decide) rfl (.select rfl .none)
      (selectContract_sales rfl 1)
  have measured : (measuredSales function).inferAt salesCatalog 3 [] 2 =
      .ok ⟨["region", "total"], []⟩ :=
    QueryGraph.inferAt_of_inferredNode (by decide) rfl (.aggregate rfl (.some read)) measures
  rw [QueryGraph.plan, QueryGraph.inferContract_eq]
  show ((measuredSales function).inferAt salesCatalog 3 [] 2 >>= _) = _
  rw [measured]
  rfl

/-- One column of the sales under a name. -/
def namedSales (name source : String) : QueryGraph :=
  ⟨[⟨1, none, .select (some sales.key) [⟨name, some source, none⟩] none⟩]⟩

/-- The query of one column under a name. -/
def namedSalesPlan (name source : String) : Plan :=
  .select (selectPlan (some (.table ⟨sales.key.objectName, none⟩)) [⟨name, some source, none⟩] none)

/-- The column is read under that name, if the contract is as it should be. -/
theorem plan_namedSales {name source : String}
    (named : selectContract salesCatalog 1 none (some sales.key) [⟨name, some source, none⟩] =
      ⟨[name], []⟩) :
    (namedSales name source).plan salesCatalog 1 = .ok (namedSalesPlan name source) := by
  have read : (namedSales name source).inferAt salesCatalog 2 [] 1 = .ok ⟨[name], []⟩ :=
    QueryGraph.inferAt_of_inferredNode (by decide) rfl (.select rfl .none) named
  rw [QueryGraph.plan, QueryGraph.inferContract_eq]
  show ((namedSales name source).inferAt salesCatalog 2 [] 1 >>= _) = _
  rw [read]
  rfl

/-- The same equalities between names up to case are not enough. The function of a measure is
written as it is, so that it can add a column. And a column that has its source's name up to case is
written with an alias, while one that has its source's very name is not. -/
theorem not_always_same_kinds :
    (¬ ∀ (d : Dialect) (function function' : String) (p p' : Plan),
      (∀ name ∈ ["region", "amount", "total"], Text.sameIgnoringAsciiCase function name =
        Text.sameIgnoringAsciiCase function' name) →
      (measuredSales function).plan salesCatalog 2 = .ok p →
      (measuredSales function').plan salesCatalog 2 = .ok p' →
      (p.sql d).map (fun sql => lex d sql.toList) = (p'.sql d).map fun sql => lex d sql.toList) ∧
    ¬ ∀ (d : Dialect) (name source name' source' : String) (p p' : Plan),
      Text.sameIgnoringAsciiCase name source = Text.sameIgnoringAsciiCase name' source' →
      (namedSales name source).plan salesCatalog 1 = .ok p →
      (namedSales name' source').plan salesCatalog 1 = .ok p' →
      (p.sql d).map (fun sql => lex d sql.toList) = (p'.sql d).map fun sql => lex d sql.toList := by
  constructor
  · intro always
    have same := always .duckdb "sum" "sum(1), max" _ _ (by decide) (plan_measuredSales rfl)
      (plan_measuredSales rfl)
    revert same
    decide +kernel
  · intro always
    have aliased : (namedSales "ID" "id").plan salesCatalog 1 = .ok (namedSalesPlan "ID" "id") := by
      apply plan_namedSales
      rw [selectContract, selectInput_sales rfl]
      rfl
    have bare : (namedSales "ID" "ID").plan salesCatalog 1 = .ok (namedSalesPlan "ID" "ID") := by
      apply plan_namedSales
      rw [selectContract, selectInput_sales rfl]
      rfl
    have same := always .duckdb "ID" "id" "ID" "ID" _ _ (by decide) aliased bare
    revert same
    decide +kernel

end Warehouse
