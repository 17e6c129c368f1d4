/-
Module: Warehouse.Proofs.Graph.LongestChains
Purpose: A level is known by the chains of needs that end in it. The chain that decides is found by
  going back, from a member to one of the level before, until the first level is reached; and no
  chain is longer, since each of its needs leads from one level to a later one.
Trusted boundary: none
Main exports: ChainTo, LongestLevels, Levelled.chainTo, Levelled.le_of_chainTo, levelsFrom_sorted,
  levelsOf_longest
-/
import Warehouse.Proofs.Graph.Levels

namespace Warehouse.DependencyGraph

variable {α : Type} [DecidableEq α] [Ord α]

/-- Chains of needs among members, each member needing the one before it: `ChainTo g members n x`
says that one of `n` needs ends in `x`. -/
inductive ChainTo (g : DependencyGraph α) (members : List α) : Nat → α → Prop where
  | alone {x : α} (member : x ∈ members) : ChainTo g members 0 x
  | next {n : Nat} {u x : α} (chain : ChainTo g members n u) (need : g.NeedsWithin members x u) :
      ChainTo g members (n + 1) x

/-- What the levels of members are by their chains: in level `n` stand, in ascending order, the
members whose longest chain has `n` needs. No level is empty, and each member stands in one. -/
structure LongestLevels (g : DependencyGraph α) (members : List α) (levels : List (List α)) :
    Prop where
  nonempty : ∀ level ∈ levels, level ≠ []
  ascending : ∀ level ∈ levels, Ascending level
  once : levels.flatten.Nodup
  all : ∀ x, x ∈ levels.flatten ↔ x ∈ members
  longest : ∀ n level, levels[n]? = some level →
    ∀ x ∈ level, IsGreatest {k | ChainTo g members k x} n

/-! ### Levels and chains -/

section

variable {g : DependencyGraph α} {members : List α} {levels : List (List α)} {x : α} {n : Nat}

/-- A member is the end of a chain that has as many needs as there are levels before it. -/
theorem Levelled.chainTo [Std.LawfulEqOrd α] (levelled : g.Levelled members levels)
    (member : x ∈ members) (level : levelOf levels x = n) : ChainTo g members n x := by
  induction n generalizing x with
  | zero => exact .alone member
  | succ n ih =>
    rcases levelled.next x member with first | ⟨u, need, member', next⟩
    · rw [level] at first
      cases first
    · have before : levelOf levels u = n := by omega
      exact .next (ih member' before) ⟨member, member', mem_prerequisites.mp need⟩

/-- No chain has more needs than there are levels before its end. -/
theorem Levelled.le_of_chainTo [Std.LawfulEqOrd α] (levelled : g.Levelled members levels)
    (chain : ChainTo g members n x) : n ≤ levelOf levels x := by
  induction chain with
  | alone => exact Nat.zero_le _
  | next _ need ih =>
    have later := levelled.before _ need.1 _ (mem_prerequisites.mpr need.2.2) need.2.1
    exact Nat.succ_le_of_lt (Nat.lt_of_le_of_lt ih later)

omit [Ord α] in
/-- In levels without repetition, an element has the number of the level that holds it. -/
theorem levelOf_eq_of_getElem? {level : List α} (once : levels.flatten.Nodup)
    (held : levels[n]? = some level) (there : x ∈ level) : levelOf levels x = n := by
  induction levels generalizing n with
  | nil => cases held
  | cons first levels ih =>
    rw [List.flatten_cons] at once
    cases n with
    | zero =>
      cases held
      exact levelOf_cons_of_mem there
    | succ n =>
      have held : levels[n]? = some level := held
      have later : x ∈ levels.flatten := List.mem_flatten_of_mem (List.mem_of_getElem? held) there
      have apart : x ∉ first := fun here => List.disjoint_of_nodup_append once here later
      rw [levelOf_cons_of_notMem apart, ih once.of_append_right held]

end

/-! ### Levels that are found -/

section

variable {g : DependencyGraph α} {members placed : List α}

/-- Every level is what was ready before it: something, in ascending order. -/
theorem levelsFrom_sorted [Std.TransOrd α] [Std.LawfulEqOrd α] {s : Sweep α}
    (underway : Underway g members placed s) :
    ∀ level ∈ g.levelsFrom s, level ≠ [] ∧ Ascending level := by
  induction s using DependencyGraph.levelsFrom.induct g generalizing placed with
  | case1 w =>
    rw [levelsFrom]
    intro level there
    cases there
  | case2 w x rest ih =>
    rw [levelsFrom]
    intro level there
    rcases List.mem_cons.mp there with rfl | later
    · exact ⟨List.cons_ne_nil x rest, underway.ascending⟩
    · exact ih underway.placeLevel level later

private theorem eq_levelsFrom_of_levelsOf {levels : List (List α)}
    (found : g.levelsOf members = .ok levels) :
    levels = g.levelsFrom (g.start (ascending members)) := by
  simp only [levelsOf] at found
  split at found
  · cases found
  · exact (Except.ok.inj found).symm

end

/-- Level sets are the longest-path levels. For members that are nodes there are levels exactly if
there is an order; the levels that are found are not empty, ascend and hold each member once, and
the number of the level that holds a member is the number of needs in the longest chain of members
that ends in it. -/
theorem levelsOf_longest [Std.TransOrd α] [Std.LawfulEqOrd α] (g : DependencyGraph α)
    {members : List α} (nodes : members ⊆ g.nodes) :
    ((∃ levels, g.levelsOf members = .ok levels) ↔ ∃ order, g.orderOf members = .ok order) ∧
    ∀ levels, g.levelsOf members = .ok levels → LongestLevels g members levels := by
  constructor
  · rw [exists_levelsOf_iff nodes, exists_orderOf_iff nodes]
  · intro levels found
    have levelled := levelled_of_levelsOf nodes found
    have sorted : ∀ level ∈ levels, level ≠ [] ∧ Ascending level := by
      rw [eq_levelsFrom_of_levelsOf found]
      exact levelsFrom_sorted (underway_start (ascending_spec members))
    constructor
    case nonempty => exact fun level there => (sorted level there).1
    case ascending => exact fun level there => (sorted level there).2
    case once => exact levelled.once
    case all => exact levelled.all
    case longest =>
      -- The chain is found by going back level by level; that no other is longer holds of each
      -- chain on its own.
      intro n level held x there
      have number := levelOf_eq_of_getElem? levelled.once held there
      have member := (levelled.all x).mp (List.mem_flatten_of_mem (List.mem_of_getElem? held) there)
      constructor
      · exact levelled.chainTo member number
      · intro k chain
        exact number ▸ levelled.le_of_chainTo chain

/-- Deliveries that need the customers directly too, beside the orders that need them. -/
def directDeliveries : DependencyGraph DatasetKey :=
  deliveries.addDependency ⟨"core", "deliveries"⟩ ⟨"core", "customers"⟩

/-- Deliveries stand behind the orders, although one chain leads to them from the first level at
once. -/
def deliveredLevels : List (List DatasetKey) :=
  [[⟨"core", "customers"⟩, ⟨"core", "products"⟩], [⟨"core", "orders"⟩], [⟨"core", "deliveries"⟩]]

/-- In the deliveries the level of each is the length of the longest chain that leads there. -/
theorem levelsOf_longest_for_deliveries :
    deliveredMembers ⊆ directDeliveries.nodes ∧
    ((∃ levels, directDeliveries.levelsOf deliveredMembers = .ok levels) ↔
      ∃ order, directDeliveries.orderOf deliveredMembers = .ok order) ∧
    directDeliveries.levelsOf deliveredMembers = .ok deliveredLevels ∧
    LongestLevels directDeliveries deliveredMembers deliveredLevels := by
  have nodes : deliveredMembers ⊆ directDeliveries.nodes := by decide
  have found : directDeliveries.levelsOf deliveredMembers = .ok deliveredLevels := by decide +kernel
  obtain ⟨succeeds, longest⟩ := levelsOf_longest directDeliveries nodes
  exact ⟨nodes, succeeds, found, longest deliveredLevels found⟩

end Warehouse.DependencyGraph
