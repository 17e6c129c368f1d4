/-
Module: Warehouse.Proofs.Catalog.InferenceSearch
Purpose: When a query tree has a contract. The search for it follows each path until it closes, and
  keeps what it has found; without the memory it would find the same, since a node that was found
  has nothing below it that reads it. So the contract exists if the tree is complete and no node of
  it reads itself, however many nodes share one, and otherwise the error names a node that is
  missing or one that reads itself.
Trusted boundary: none
Main exports: Agrees, QueryGraph.Reaches, QueryGraph.OnCycle, QueryGraph.PathTo,
  QueryGraph.inferContract_eq, QueryGraph.inferContract_spec
-/
import Mathlib.Data.List.Perm.Subperm
import Mathlib.Logic.Relation
import Warehouse.Proofs.Catalog.Inference

namespace Warehouse

/-! ### Computations with a memory -/

/-- Whether a computation with a memory gives what one without gives, and keeps the memory sound. -/
def Agrees {σ ε α : Type} (sound : σ → Prop) (x : StateT σ (Except ε) α) (y : Except ε α) : Prop :=
  ∀ s, sound s → match x.run s with
    | .ok (a, s') => y = .ok a ∧ sound s'
    | .error e => y = .error e

section

variable {σ ε α β : Type} {sound : σ → Prop}

/-- What needs no memory agrees with itself. -/
theorem Agrees.pure (a : α) : Agrees sound (Pure.pure a : StateT σ (Except ε) α) (.ok a) :=
  fun _ fine => ⟨rfl, fine⟩

/-- Computations that agree step by step agree. -/
theorem Agrees.bind {x : StateT σ (Except ε) α} {y : Except ε α} {f : α → StateT σ (Except ε) β}
    {h : α → Except ε β} (first : Agrees sound x y)
    (next : ∀ a, y = .ok a → Agrees sound (f a) (h a)) :
    Agrees sound (x >>= f) (y >>= h) := by
  intro s fine
  have here := first s fine
  rw [StateT.run_bind]
  cases ran : x.run s with
  | error e =>
    rw [ran] at here
    dsimp only at here
    rw [here]
    rfl
  | ok result =>
    obtain ⟨a, s'⟩ := result
    rw [ran] at here
    obtain ⟨given, fine⟩ := here
    rw [given]
    exact next a given s' fine

/-- Computations over a list agree if they agree on each of its members. -/
theorem Agrees.mapM {f : α → StateT σ (Except ε) β} {h : α → Except ε β} {xs : List α}
    (each : ∀ x ∈ xs, Agrees sound (f x) (h x)) : Agrees sound (xs.mapM f) (xs.mapM h) := by
  induction xs with
  | nil => exact .pure []
  | cons x xs ih =>
    obtain ⟨first, rest⟩ := List.forall_mem_cons.mp each
    rw [List.mapM_cons, List.mapM_cons]
    exact first.bind fun y _ => (ih rest).bind fun ys _ => .pure (y :: ys)

/-- To keep what was computed changes nothing about it. -/
theorem Agrees.bind_modify {x : StateT σ (Except ε) α} {y : Except ε α} {keep : α → σ → σ}
    (first : Agrees sound x y) (stays : ∀ a s, y = .ok a → sound s → sound (keep a s)) :
    Agrees sound (do let a ← x; modify (keep a); return a) y := by
  rw [← bind_pure y]
  exact first.bind fun a given s fine => ⟨rfl, stays a s given fine⟩

end

/-- The contract of a node is made alike with and without a memory if those of the nodes that it
reads are. -/
theorem agrees_inferNode {σ : Type} {sound : σ → Prop} {c : Catalog} {id : NodeId} {n : QueryNode}
    {f : NodeId → StateT σ (Except CatalogError) Contract}
    {h : NodeId → Except CatalogError Contract}
    (each : ∀ below ∈ n.children, Agrees sound (f below) (h below)) :
    Agrees sound (inferNode c f id n) (inferNode c h id n) := by
  have input : Agrees sound (inferInput f n.input?) (inferInput h n.input?) := by
    cases reads : n.input? with
    | none => exact .pure none
    | some input =>
      have made := each input (by simp [QueryNode.children, reads])
      exact made.bind fun k _ => .pure (some k)
  refine input.bind fun k _ => ?_
  cases kind : n.kind with
  | union branches all =>
    have branch (b : NodeId) (member : b ∈ branches) : Agrees sound (f b) (h b) :=
      each b (by simp [QueryNode.children, kind, member])
    have pairs := Agrees.mapM fun b member => (branch b member).bind fun k _ => Agrees.pure (b, k)
    exact pairs.bind fun contracts _ => .pure _
  | _ => exact .pure _

/-! ### Paths in trees -/

/-- A contract of a node rests on a contract of each of its children. -/
theorem InferredNode.exists_of_mem_children {c : Catalog} {inferred : NodeId → Contract → Prop}
    {id below : NodeId} {n : QueryNode} {k : Contract} (made : InferredNode c inferred id n k)
    (child : below ∈ n.children) :
    ∃ k', inferred below k' := by
  have read {input : Option Contract} (read : Option.Rel inferred n.input? input)
    (child : below ∈ n.input?.toList) :
      ∃ k', inferred below k' := by
    rw [Option.mem_toList] at child
    rw [Option.mem_def.mp child] at read
    cases read with
    | some known => exact ⟨_, known⟩
  rw [QueryNode.children, List.mem_append] at child
  cases made with
  | select kind input => exact child.elim (read input) fun branch => by simp [kind] at branch
  | aggregate kind input => exact child.elim (read input) fun branch => by simp [kind] at branch
  | window kind input => exact child.elim (read input) fun branch => by simp [kind] at branch
  | union kind input each =>
    rcases child with child | branch
    · exact read input child
    · rw [kind] at branch
      obtain ⟨k, _, _, known⟩ := exists_of_mem_right each.flip branch
      exact ⟨_, known⟩

namespace QueryGraph

/-- Whether a node is part of the tree under `root`: it is reached through inputs and branches. -/
def Reaches (g : QueryGraph) (root id : NodeId) : Prop :=
  Relation.ReflTransGen (fun above below => below ∈ g.childrenOf above) root id

/-- Whether a node reads itself, directly or through others. -/
def OnCycle (g : QueryGraph) (id : NodeId) : Prop :=
  Relation.TransGen (fun above below => below ∈ g.childrenOf above) id id

/-- What a search has to know of the path on which it comes to a node: the nodes on it exist, they
are different, and all of them read that node. -/
structure PathTo (g : QueryGraph) (path : List NodeId) (id : NodeId) : Prop where
  nodup : path.Nodup
  known : ∀ above ∈ path, ∃ n, g.node? above = some n
  reads : ∀ above ∈ path, Relation.TransGen (fun above below => below ∈ g.childrenOf above) above id

variable {g : QueryGraph} {c : Catalog} {fuel : Nat} {path : List NodeId} {id : NodeId}
    {k : Contract}

private theorem childrenOf_eq {n : QueryNode} (node : g.node? id = some n) :
    g.childrenOf id = n.children := by
  rw [childrenOf, node]

namespace PathTo

/-- No step leads to where a search begins. -/
theorem nil : g.PathTo [] id := ⟨.nil, by simp, by simp⟩

/-- A path may be extended by a child, as long as it does not return. -/
theorem cons {n : QueryNode} {below : NodeId} (leads : g.PathTo path id) (fresh : id ∉ path)
    (node : g.node? id = some n) (child : below ∈ n.children) : g.PathTo (id :: path) below := by
  have step : below ∈ g.childrenOf id := childrenOf_eq node ▸ child
  refine ⟨List.nodup_cons.mpr ⟨fresh, leads.nodup⟩,
    List.forall_mem_cons.mpr ⟨⟨n, node⟩, leads.known⟩, ?_⟩
  exact List.forall_mem_cons.mpr
    ⟨.single step, fun above member => (leads.reads above member).tail step⟩

/-- There are no more nodes on a path than there are nodes. -/
theorem length_le (leads : g.PathTo path id) : path.length ≤ g.nodes.length := by
  have named : path ⊆ g.nodes.map QueryNode.id := by
    intro above member
    obtain ⟨n, node⟩ := leads.known above member
    obtain ⟨among, rfl⟩ := mem_nodes_of_node? node
    exact List.mem_map_of_mem among
  simpa using (leads.nodup.subperm named).length_le

end PathTo

/-! ### Searches without a memory -/

/-- Where the search comes to a contract, the tree is complete, it has no node in common with the
path, and none of its nodes reads itself. -/
theorem complete_of_inferAt (inferred : g.inferAt c fuel path id = .ok k) {below : NodeId}
    (part : g.Reaches id below) : (∃ n, g.node? below = some n) ∧ below ∉ path ∧
    ¬ g.OnCycle below := by
  induction fuel generalizing path id k with
  | zero => cases inferred
  | succ fuel ih =>
    obtain ⟨fresh, n, node, made⟩ := inferAt_succ_iff.mp inferred
    have child {b : NodeId} (step : b ∈ g.childrenOf id) (part : g.Reaches b below) :
        (∃ n, g.node? below = some n) ∧ below ∉ id :: path ∧ ¬ g.OnCycle below := by
      obtain ⟨k', inferred⟩ := made.exists_of_mem_children (childrenOf_eq node ▸ step)
      exact ih inferred part
    rcases Relation.ReflTransGen.cases_head part with rfl | ⟨b, step, part⟩
    · refine ⟨⟨n, node⟩, fresh, fun circle => ?_⟩
      obtain ⟨b, step, back⟩ := Relation.TransGen.head'_iff.mp circle
      exact (child step back).2.1 List.mem_cons_self
    · obtain ⟨known, apart, noCycle⟩ := child step part
      exact ⟨known, mt (List.mem_cons_of_mem id) apart, noCycle⟩

/-- Where it does not, the error names a node of the tree that reads itself or is missing. -/
theorem fault_of_inferAt {e : CatalogError} (leads : g.PathTo path id)
    (enough : fuel + path.length = g.nodes.length + 1)
    (failed : g.inferAt c fuel path id = .error e) :
    (∃ x, e = .queryCycle x ∧ g.Reaches id x ∧ g.OnCycle x) ∨
      ∃ x, e = .unknownQueryNode x ∧ g.Reaches id x ∧ g.node? x = none := by
  induction fuel generalizing path id with
  | zero =>
    -- A path without a repetition is too short to use up the fuel.
    have short := leads.length_le
    omega
  | succ fuel ih =>
    rw [inferAt_succ] at failed
    by_cases repeated : id ∈ path
    · rw [if_pos (by simpa using repeated)] at failed
      cases failed
      exact .inl ⟨id, rfl, .refl, leads.reads id repeated⟩
    · rw [if_neg (by simpa using repeated)] at failed
      rcases bind_eq_error_iff.mp failed with missing | ⟨n, node, failed⟩
      · rw [node.eq_def] at missing
        split at missing
        · cases missing
        · next missing' =>
          cases missing
          exact .inr ⟨id, rfl, .refl, missing'⟩
      · have node := node_eq_ok_iff.mp node
        obtain ⟨below, child, failed⟩ := exists_of_inferNode_eq_error failed
        have step : below ∈ g.childrenOf id := childrenOf_eq node ▸ child
        have deeper := leads.cons repeated node child
        rcases ih deeper (by rw [List.length_cons]; omega) failed with
          ⟨x, named, part, circle⟩ | ⟨x, named, part, none⟩
        · exact .inl ⟨x, named, .head step part, circle⟩
        · exact .inr ⟨x, named, .head step part, none⟩

/-- What was found of a node on one path is found on every other one. -/
theorem inferAt_of_found (leads : g.PathTo path id)
    (enough : fuel + path.length = g.nodes.length + 1)
    (found : g.inferAt c (g.nodes.length + 1) [] id = .ok k) :
    g.inferAt c fuel path id = .ok k := by
  cases here : g.inferAt c fuel path id with
  | ok k' => exact (inferAt_mono (by omega) (List.nil_subset path) here).symm.trans found
  | error e =>
    rcases fault_of_inferAt leads enough here with ⟨x, _, part, circle⟩ | ⟨x, _, part, missing⟩
    · exact absurd circle (complete_of_inferAt found part).2.2
    · obtain ⟨n, node⟩ := (complete_of_inferAt found part).1
      cases node.symm.trans missing

/-! ### Searches with a memory -/

/-- Whether what is kept of nodes is what is found of them from the start. -/
def Remembers (g : QueryGraph) (c : Catalog) (memory : List (NodeId × Contract)) : Prop :=
  ∀ id k, memory.lookup id = some k → g.inferAt c (g.nodes.length + 1) [] id = .ok k

/-- What is found can be remembered. -/
theorem Remembers.cons {memory : List (NodeId × Contract)} (sound : g.Remembers c memory)
    (found : g.inferAt c (g.nodes.length + 1) [] id = .ok k) :
    g.Remembers c ((id, k) :: memory) := by
  intro other k' kept
  rw [List.lookup_cons] at kept
  split at kept
  · next same =>
    cases kept
    rw [eq_of_beq same]
    exact found
  · exact sound other k' kept

/-- A step of a search, without what shows that it ends. -/
theorem search_eq : g.search c path id = do
    match (← get).lookup id with
    | some known => return known
    | none =>
      if id ∈ path then throw (.queryCycle id)
      else match g.node? id with
        | none => throw (.unknownQueryNode id)
        | some n =>
          let k ← inferNode c (g.search c (id :: path)) id n
          modify ((id, k) :: ·)
          return k := by
  rw [search]
  refine bind_congr fun memory => ?_
  cases memory.lookup id with
  | some known => rfl
  | none =>
    rw [dite_eq_ite]
    refine if_congr Iff.rfl rfl ?_
    split
    · next missing => rw [missing]
    · next n node => rw [node]

/-- On every path, the search with a memory comes to what it comes to without one. -/
theorem search_agrees (leads : g.PathTo path id)
    (enough : fuel + path.length = g.nodes.length + 1) :
    Agrees (g.Remembers c) (g.search c path id) (g.inferAt c fuel path id) := by
  induction fuel generalizing path id with
  | zero =>
    have short := leads.length_le
    omega
  | succ fuel ih =>
    intro memory sound
    rw [search_eq, StateT.run_bind, StateT.run_get, pure_bind]
    dsimp only
    cases kept : memory.lookup id with
    | some k =>
      -- What is kept was found from the start, and nothing below it is on this path.
      exact ⟨inferAt_of_found leads enough (sound id k kept), sound⟩
    | none =>
      dsimp only
      rw [inferAt_succ]
      by_cases repeated : id ∈ path
      · rw [if_pos repeated, if_pos (by simpa using repeated)]
        rfl
      · rw [if_neg repeated, if_neg (by simpa using repeated), node.eq_def]
        cases node : g.node? id with
        | none => rfl
        | some n =>
          have below : Agrees (g.Remembers c) (inferNode c (g.search c (id :: path)) id n)
              (inferNode c (g.inferAt c fuel (id :: path)) id n) := by
            refine agrees_inferNode fun below child => ih (leads.cons repeated node child) ?_
            rw [List.length_cons]
            omega
          refine below.bind_modify (fun k memory made sound => sound.cons ?_) memory sound
          have found : g.inferAt c (fuel + 1) path id = .ok k :=
            inferAt_of_inferredNode repeated node (inferNode_eq_ok_iff.mp made) rfl
          exact inferAt_mono (by omega) (List.nil_subset path) found

/-- The contract of a tree is what is inferred of its root without a memory. -/
theorem inferContract_eq (g : QueryGraph) (c : Catalog) (root : NodeId) :
    g.inferContract c root = g.inferAt c (g.nodes.length + 1) [] root := by
  have agrees := search_agrees (c := c) (.nil : g.PathTo [] root) rfl [] (by simp [Remembers])
  rw [inferContract, StateT.run'_eq]
  cases ran : (g.search c [] root).run [] with
  | error e =>
    rw [ran] at agrees
    exact agrees.symm
  | ok found =>
    rw [ran] at agrees
    exact agrees.1.symm

/-- A tree has a contract exactly if all of its nodes exist and none of them reads itself, and
otherwise the error names one that reads itself or one that is missing. A node that several others
read is neither. -/
theorem inferContract_spec (g : QueryGraph) (c : Catalog) (root : NodeId) :
    ((∃ k, g.inferContract c root = .ok k) ↔
      ∀ id, g.Reaches root id → (∃ n, g.node? id = some n) ∧ ¬ g.OnCycle id) ∧
    ∀ e, g.inferContract c root = .error e →
      (∃ id, e = .queryCycle id ∧ g.Reaches root id ∧ g.OnCycle id) ∨
        ∃ id, e = .unknownQueryNode id ∧ g.Reaches root id ∧ g.node? id = none := by
  rw [inferContract_eq]
  have faults (e : CatalogError) (failed : g.inferAt c (g.nodes.length + 1) [] root = .error e) :=
    fault_of_inferAt (.nil : g.PathTo [] root) rfl failed
  refine ⟨⟨?_, fun complete => ?_⟩, faults⟩
  · rintro ⟨k, inferred⟩ id part
    obtain ⟨known, _, noCycle⟩ := complete_of_inferAt inferred part
    exact ⟨known, noCycle⟩
  · cases here : g.inferAt c (g.nodes.length + 1) [] root with
    | ok k => exact ⟨k, rfl⟩
    | error e =>
      rcases faults e here with ⟨id, _, part, circle⟩ | ⟨id, _, part, missing⟩
      · exact absurd circle (complete id part).2
      · obtain ⟨n, node⟩ := (complete id part).1
        cases node.symm.trans missing

/-- Two nodes that read each other, below a third one. -/
example :
    (⟨[⟨1, some 2, .window []⟩, ⟨2, some 1, .window []⟩, ⟨3, none, .union [1] true⟩]⟩ :
      QueryGraph).inferContract
    ⟨[], [], []⟩ 3 = .error (.queryCycle 1) := by
  cbv

end QueryGraph

end Warehouse
