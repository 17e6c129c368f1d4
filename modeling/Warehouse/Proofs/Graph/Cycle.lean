/-
Module: Warehouse.Proofs.Graph.Cycle
Purpose: The report of a cycle shows one. When not all members can be placed, each that is left
  needs another one that is left, so the walk back from any of them goes on among them until it
  comes to one that it has passed. Until then it passes no member twice, so it makes no more steps
  than there are members left.
Trusted boundary: none
Main exports: ShowsCycle, Walked, Walked.step, walkBack_returns, Stalled.showsCycle,
  orderOf_eq_error_iff, reported_cycle_is_real
-/
import Warehouse.Proofs.Graph.Levels

namespace Warehouse.DependencyGraph

variable {α : Type} [DecidableEq α] [Ord α]

/-- What the report of a cycle shows, when only some of the members are placed: a path through
members that are not placed, each one needed by the next, that comes to its first node again. The
path has one node more than the walk that found it has steps, and the steps are no more than the
members that are not placed. -/
structure ShowsCycle (g : DependencyGraph α) (members placed : List α) (c : Cycle α) : Prop where
  left : ∀ x ∈ c.path, x ∈ members ∧ x ∉ placed
  needed : c.path.IsChain fun u x => u ∈ g.prerequisites x
  returns : ∃ first between rest, c.path = first :: (between ++ first :: rest)
  steps : c.path.length ≤ ((ascending members).filter (· ∉ placed)).length + 1

/-- A path that a walk back among stuck members has made so far: each of its nodes is needed by the
next, and none has been passed twice. -/
structure Walked (g : DependencyGraph α) (stuck path : List α) : Prop where
  stuck : path ⊆ stuck
  needed : path.IsChain fun u x => u ∈ g.prerequisites x
  once : path.Nodup

/-! ### Walking back

From an element that cannot be placed the search goes to its least prerequisite that cannot be
placed either, and so on. There always is one, so that in a finite set the walk returns to where it
was. -/

section

variable {g : DependencyGraph α} {stuck passed : List α} {current up : α}

/-- A walk begins at a stuck member. -/
theorem walked_singleton (first : current ∈ stuck) : Walked g stuck [current] where
  stuck := List.cons_subset.mpr ⟨first, List.nil_subset stuck⟩
  needed := List.isChain_singleton current
  once := List.nodup_singleton current

/-- A step to a stuck prerequisite that is new goes on with the walk. -/
theorem Walked.step (walked : Walked g stuck (current :: passed))
    (need : up ∈ g.prerequisites current) (there : up ∈ stuck) (new : up ∉ current :: passed) :
    Walked g stuck (up :: current :: passed) where
  stuck := List.cons_subset.mpr ⟨there, walked.stuck⟩
  needed := List.isChain_cons_cons.mpr ⟨need, walked.needed⟩
  once := List.nodup_cons.mpr ⟨new, walked.once⟩

/-- One step of the walk. -/
private theorem walkBack_of_found (found : (g.prerequisites current).find? (· ∈ stuck) = some up) :
    g.walkBack stuck current passed =
      if up ∈ current :: passed then up :: current :: passed
        else g.walkBack stuck up (current :: passed) := by
  rw [walkBack]
  split
  · next none =>
    rw [found] at none
    cases none
  · next same =>
    rw [found] at same
    cases same
    rfl

/-- Where each stuck member needs another, a walk ends with a step to a node that it has passed. -/
theorem walkBack_returns (goesOn : ∀ x ∈ stuck, ∃ u ∈ g.prerequisites x, u ∈ stuck)
    (walked : Walked g stuck (current :: passed)) :
    ∃ again last before, g.walkBack stuck current passed = again :: last :: before ∧
      again ∈ g.prerequisites last ∧ again ∈ last :: before ∧ Walked g stuck (last :: before) := by
  induction current, passed using DependencyGraph.walkBack.induct g stuck with
  | case1 current passed none =>
    obtain ⟨u, need, there⟩ := goesOn current (walked.stuck List.mem_cons_self)
    exact absurd (decide_eq_true there) (List.find?_eq_none.mp none u need)
  | case2 current passed up found old =>
    refine ⟨up, current, passed, ?_, List.mem_of_find?_eq_some found, old, walked⟩
    rw [walkBack_of_found found, if_pos old]
  | case3 current passed up found new ih =>
    have need : up ∈ g.prerequisites current := List.mem_of_find?_eq_some found
    have there : up ∈ stuck := by simpa using List.find?_some found
    rw [walkBack_of_found found, if_neg new]
    exact ih (walked.step need there new)

end

/-! ### The report -/

section

variable [Std.LawfulEqOrd α] {g : DependencyGraph α} {members placed : List α}

/-- When members have stalled and not all of them are placed, the report shows a cycle. -/
theorem Stalled.showsCycle (stalled : Stalled g members placed)
    (fewer : ¬ ascending members ⊆ placed) :
    ShowsCycle g members placed (g.cycle (ascending members) placed) := by
  have mem_left {x : α} : x ∈ (ascending members).filter (· ∉ placed) ↔
      x ∈ members ∧ x ∉ placed := by
    rw [List.mem_filter, mem_ascending, decide_eq_true_eq]
  -- So the walk never ends for want of a next node.
  have goesOn : ∀ x ∈ (ascending members).filter (· ∉ placed),
      ∃ u ∈ g.prerequisites x, u ∈ (ascending members).filter (· ∉ placed) := by
    intro x waits
    obtain ⟨member, new⟩ := mem_left.mp waits
    obtain ⟨u, need, new'⟩ := stalled x member new
    exact ⟨u, mem_prerequisites.mpr need.2.2, mem_left.mpr ⟨need.2.1, new'⟩⟩
  cases left : (ascending members).filter (· ∉ placed) with
  | nil =>
    refine absurd (fun x member => ?_) fewer
    apply Classical.byContradiction
    intro new
    have waits := mem_left.mpr ⟨mem_ascending.mp member, new⟩
    rw [left] at waits
    cases waits
  | cons first rest =>
    rw [left] at goesOn
    obtain ⟨again, last, before, walk, need, old, walked⟩ :=
      walkBack_returns goesOn (walked_singleton List.mem_cons_self)
    have path : (g.cycle (ascending members) placed).path = again :: last :: before := by
      rw [cycle, left]
      exact walk
    have stuck : again :: last :: before ⊆ first :: rest :=
      List.cons_subset.mpr ⟨walked.stuck old, walked.stuck⟩
    constructor
    case left =>
      intro x there
      rw [path] at there
      exact mem_left.mp (left ▸ stuck there)
    case needed =>
      rw [path]
      exact List.isChain_cons_cons.mpr ⟨need, walked.needed⟩
    case returns =>
      obtain ⟨between, rest, split⟩ := List.append_of_mem old
      exact ⟨again, between, rest, by rw [path, split]⟩
    case steps =>
      have short := (List.subperm_of_subset walked.once walked.stuck).length_le
      rw [path, left]
      exact Nat.succ_le_succ short

/-- Whatever is found otherwise, the failure that is reported when too few members are placed shows
a cycle. -/
theorem Stalled.showsCycle_of_failed [Std.TransOrd α] {β : Type} {found : β} {c : Cycle α}
    (stalled : Stalled g (ascending members) placed)
    (failed : (if placed.length < (ascending members).length then
      Except.error (g.cycle (ascending members) placed) else Except.ok found) = .error c) :
    ShowsCycle g members placed c := by
  split at failed
  · next fewer =>
    cases failed
    apply (stalled_ascending.mp stalled).showsCycle
    intro all
    have enough := (List.subperm_of_subset (ascending_spec members).nodup all).length_le
    omega
  · cases failed

end

/-! ### One report

Members that an order leaves, levels leave too: what can be placed one after another has been placed
wherever members have stalled. -/

section

variable {g : DependencyGraph α} {members placed placed' order : List α}

/-- Members that have stalled have among the placed whatever can be placed in some order. -/
theorem Stalled.subset_of_follows [Std.LawfulEqOrd α] (stalled : Stalled g members placed')
    (follows : Follows g members placed order) (old : placed ⊆ placed') : order ⊆ placed' := by
  induction follows with
  | nil => exact List.nil_subset placed'
  | @cons placed order x member new after rest ih =>
    have here : x ∈ placed' := by
      apply Classical.byContradiction
      intro waits
      obtain ⟨u, need, new'⟩ := stalled x member waits
      exact new' (old (after u (mem_prerequisites.mpr need.2.2) need.2.1))
    exact List.cons_subset.mpr ⟨here, ih (List.cons_subset.mpr ⟨here, old⟩)⟩

/-- The report depends on which elements were placed, not on their order. -/
theorem cycle_congr (same : placed.Perm placed') :
    g.cycle members placed = g.cycle members placed' := by
  have left : members.filter (· ∉ placed) = members.filter (· ∉ placed') := by
    apply List.filter_congr
    intro x _
    simp only [same.mem_iff]
  rw [cycle, cycle, left]

variable [Std.TransOrd α] [Std.LawfulEqOrd α]

/-- Levels hold what an order has. -/
theorem placed_perm_levelsFrom (nodes : members ⊆ g.nodes) :
    (g.placed (g.start (ascending members))).Perm
    (g.levelsFrom (g.start (ascending members))).flatten := by
  have nodes' : ascending members ⊆ g.nodes := fun x member => nodes (mem_ascending.mp member)
  have start : Underway g (ascending members) [] (g.start (ascending members)) :=
    underway_start (ascending_spec members)
  have layered := layered_ascending g members
  have follows := follows_placed start
  apply (List.perm_ext_iff_of_nodup follows.nodup layered.follows.nodup).mpr
  intro x
  constructor
  · exact fun there => (layered.stalled nodes').subset_of_follows follows (List.nil_subset _) there
  · exact fun there => (stalled_placed nodes' start).subset_of_follows layered.follows
      (List.nil_subset _) there

/-- The order and the levels fail with the same report. -/
theorem orderOf_eq_error_iff (nodes : members ⊆ g.nodes) {c : Cycle α} :
    g.orderOf members = .error c ↔ g.levelsOf members = .error c := by
  have same := placed_perm_levelsFrom nodes
  simp only [orderOf, levelsOf, same.length_eq, cycle_congr same]
  split <;> simp

end

/-- A reported cycle is a real one. For members that are nodes, ordering them and putting them in
levels fail together, with one report: a path through members that are left, each one needed by the
next, that comes to its first node again. The walk that found it made no more steps than there are
members left. -/
theorem reported_cycle_is_real [Std.TransOrd α] [Std.LawfulEqOrd α] (g : DependencyGraph α)
    {members : List α} (nodes : members ⊆ g.nodes) (c : Cycle α) :
    (g.orderOf members = .error c →
      ShowsCycle g members (g.placed (g.start (ascending members))) c) ∧
    (g.levelsOf members = .error c →
      ShowsCycle g members (g.levelsFrom (g.start (ascending members))).flatten c) ∧
    (g.orderOf members = .error c ↔ g.levelsOf members = .error c) := by
  have nodes' : ascending members ⊆ g.nodes := fun x member => nodes (mem_ascending.mp member)
  have start : Underway g (ascending members) [] (g.start (ascending members)) :=
    underway_start (ascending_spec members)
  constructor
  · intro failed
    exact (stalled_placed nodes' start).showsCycle_of_failed failed
  constructor
  · intro failed
    exact ((layered_ascending g members).stalled nodes').showsCycle_of_failed failed
  · exact orderOf_eq_error_iff nodes

/-- Invoices and payments need each other, the archive needs the invoices, and customers need
nothing. -/
def invoicing : DependencyGraph DatasetKey :=
  DependencyGraph.empty
    |>.addDependency ⟨"core", "invoices"⟩ ⟨"core", "payments"⟩
    |>.addDependency ⟨"core", "payments"⟩ ⟨"core", "invoices"⟩
    |>.addDependency ⟨"core", "archive"⟩ ⟨"core", "invoices"⟩
    |>.addNode ⟨"core", "customers"⟩

/-- The walk from the archive, which is behind the circle and not on it. -/
def invoicingCycle : Cycle DatasetKey :=
  ⟨[⟨"core", "invoices"⟩, ⟨"core", "payments"⟩, ⟨"core", "invoices"⟩, ⟨"core", "archive"⟩]⟩

/-- The report on the invoices shows a cycle of theirs. -/
theorem reported_cycle_is_real_for_invoicing :
    invoicing.nodes ⊆ invoicing.nodes ∧
    invoicing.orderOf invoicing.nodes = .error invoicingCycle ∧
    ShowsCycle invoicing invoicing.nodes
      (invoicing.placed (invoicing.start (ascending invoicing.nodes))) invoicingCycle ∧
    invoicing.levelsOf invoicing.nodes = .error invoicingCycle ∧
    ShowsCycle invoicing invoicing.nodes
      (invoicing.levelsFrom (invoicing.start (ascending invoicing.nodes))).flatten
      invoicingCycle := by
  have nodes : invoicing.nodes ⊆ invoicing.nodes := List.Subset.refl invoicing.nodes
  have unordered : invoicing.orderOf invoicing.nodes = .error invoicingCycle := by decide +kernel
  have unlevelled : invoicing.levelsOf invoicing.nodes = .error invoicingCycle := by decide +kernel
  obtain ⟨order, levels, _⟩ := reported_cycle_is_real invoicing nodes invoicingCycle
  exact ⟨nodes, unordered, order unordered, unlevelled, levels unlevelled⟩

end Warehouse.DependencyGraph
