/-
Module: Warehouse.Proofs.Graph.LeastOrder
Purpose: An order is found whenever there is one, and it is the least of all. A sweep ends when no
  member is ready; every member that is not placed then waits for another one, and among finitely
  many members such waiting runs in a circle. And since it is the least of the ready that is placed,
  no order has a lesser member in its place.
Trusted boundary: none
Main exports: NeedsWithin, Acyclic, Stalled, LeastOrder, Places, Ordered.acyclic, Ordered.follows,
  stalled_placed, Stalled.subset_of_acyclic, placed_least, orderOf_least
-/
import Mathlib.Order.WellFoundedSet
import Warehouse.Proofs.Graph.Order

namespace Warehouse.DependencyGraph

variable {α : Type} [DecidableEq α] [Ord α]

/-- A need of a member that another member meets. -/
def NeedsWithin (g : DependencyGraph α) (members : List α) (a b : α) : Prop :=
  a ∈ members ∧ b ∈ members ∧ (a, b) ∈ g.needs

/-- No chain of needs among the members leads back to where it began. -/
def Acyclic (g : DependencyGraph α) (members : List α) : Prop :=
  ∀ x, ¬ Relation.TransGen (g.NeedsWithin members) x x

/-- Whether each member that is not placed needs another one that is not. -/
def Stalled (g : DependencyGraph α) (members placed : List α) : Prop :=
  ∀ x ∈ members, x ∉ placed → ∃ u, g.NeedsWithin members x u ∧ u ∉ placed

/-- The order of the members that comes first among all their orders, word by word. -/
structure LeastOrder (g : DependencyGraph α) (members order : List α) : Prop where
  ordered : Ordered g members order
  least : ∀ other, Ordered g members other →
    order = other ∨ List.Lex (fun a b => compare a b = .lt) order other

/-- One step of a sweep, which places the least of the ready. -/
inductive Places (g : DependencyGraph α) : Sweep α → Sweep α → Prop where
  | least (x : α) (w : Waiting α) (rest : List α) :
    Places g ⟨w, x :: rest⟩ (g.afterPlacing x w rest)

/-! ### Circles

A set in which every element needs another cannot be placed. In a finite set such a chain of needs
has to return, and conversely an order of all elements leaves no room for a circle. -/

omit [DecidableEq α] [Ord α] in
/-- Where each of finitely many elements is followed by another, some chain runs in a circle. -/
theorem exists_transGen_self {r : α → α → Prop} {xs : List α} (goesOn : ∀ x ∈ xs, ∃ y ∈ xs, r x y)
    {x : α} (member : x ∈ xs) : ∃ y, Relation.TransGen r y y := by
  apply Classical.byContradiction
  intro noCircle
  -- Without a circle, chains are a strict order, and an element from which no chain goes on is its
  -- minimum.
  have strict : IsStrictOrder α (fun a b => Relation.TransGen r b a) :=
    { irrefl := fun a circle => noCircle ⟨a, circle⟩
      trans := fun a b c first second => second.trans first }
  have wellFounded : {y | y ∈ xs}.WellFoundedOn fun a b => Relation.TransGen r b a :=
    (List.finite_toSet xs).wellFoundedOn
  apply wellFounded.induction (P := fun _ => False) member
  intro y _ ih
  obtain ⟨z, there, step⟩ := goesOn y ‹_›
  exact ih z there (.single step)

section

variable [Std.LawfulEqOrd α] {g : DependencyGraph α} {members placed order : List α}

/-- In an order, what is needed stands before what needs it. -/
theorem Ordered.idxOf_lt (ordered : Ordered g members order) {a b : α}
    (need : g.NeedsWithin members a b) : order.idxOf b < order.idxOf a := by
  obtain ⟨before, later, split⟩ := List.append_of_mem ((ordered.all a).mpr need.1)
  have earlier : b ∈ before :=
    ordered.after before a later split b (mem_prerequisites.mpr need.2.2) need.2.1
  have fresh : a ∉ before := by
    intro twice
    have once := ordered.once
    rw [split] at once
    exact List.disjoint_of_nodup_append once twice List.mem_cons_self
  rw [split, List.idxOf_append_of_mem earlier, List.idxOf_append_of_notMem fresh,
    List.idxOf_cons_self, Nat.add_zero]
  exact List.idxOf_lt_length_iff.mpr earlier

/-- Members that can be ordered have no circle of needs. -/
theorem Ordered.acyclic (ordered : Ordered g members order) : g.Acyclic members := by
  have descends {a b : α} (chain : Relation.TransGen (g.NeedsWithin members) a b) :
      order.idxOf b < order.idxOf a := by
    induction chain with
    | single need => exact ordered.idxOf_lt need
    | tail _ need ih => exact (ordered.idxOf_lt need).trans ih
  intro x circle
  exact Nat.lt_irrefl _ (descends circle)

/-! ### The end of a sweep -/

/-- A sweep ends with no member ready. -/
theorem exists_last [Std.TransOrd α] {s : Sweep α} (underway : Underway g members placed s) :
    ∃ w, Underway g members ((g.placed s).reverse ++ placed) ⟨w, []⟩ := by
  induction s using DependencyGraph.placed.induct g generalizing placed with
  | case1 w =>
    rw [DependencyGraph.placed]
    exact ⟨w, underway⟩
  | case2 w x rest ih =>
    rw [DependencyGraph.placed, List.reverse_cons, List.append_assoc]
    exact ih underway.place

/-- Once no member is ready, a member that is not placed needs another one. -/
theorem Underway.exists_needsWithin {w : Waiting α} (underway : Underway g members placed ⟨w, []⟩)
    {x : α} (member : x ∈ members) (node : x ∈ g.nodes) (waits : x ∉ placed) :
    ∃ u, g.NeedsWithin members x u ∧ u ∉ placed := by
  apply Classical.byContradiction
  intro none
  have free : g.pending members placed x = 0 := by
    apply pending_eq_zero_iff.mpr
    intro u need member'
    apply Classical.byContradiction
    intro new
    exact none ⟨u, ⟨member, member', mem_prerequisites.mp need⟩, new⟩
  have ready : x ∈ ([] : List α) := (underway.ready x).mpr ⟨⟨member, node⟩, waits, free⟩
  cases ready

/-- A sweep ends with all members placed or stalled. -/
theorem stalled_placed [Std.TransOrd α] (nodes : members ⊆ g.nodes) {s : Sweep α}
    (underway : Underway g members [] s) : Stalled g members (g.placed s) := by
  obtain ⟨w, last⟩ := exists_last underway
  rw [List.append_nil] at last
  intro x member waits
  obtain ⟨u, need, new⟩ :=
    last.exists_needsWithin member (nodes member) (mt List.mem_reverse.mp waits)
  exact ⟨u, need, mt List.mem_reverse.mpr new⟩

omit [Ord α] [Std.LawfulEqOrd α] in
/-- Members without a circle of needs do not stall before all of them are placed. -/
theorem Stalled.subset_of_acyclic (stalled : Stalled g members placed)
    (acyclic : g.Acyclic members) : members ⊆ placed := by
  intro x member
  apply Classical.byContradiction
  intro waits
  have goesOn : ∀ y ∈ members.filter (· ∉ placed), ∃ u ∈ members.filter (· ∉ placed),
      g.NeedsWithin members y u := by
    intro y waiting
    obtain ⟨member, waits⟩ := List.mem_filter.mp waiting
    obtain ⟨u, need, new⟩ := stalled y member (of_decide_eq_true waits)
    exact ⟨u, List.mem_filter.mpr ⟨need.2.1, decide_eq_true new⟩, need⟩
  obtain ⟨y, circle⟩ :=
    exists_transGen_self goesOn (List.mem_filter.mpr ⟨member, decide_eq_true waits⟩)
  exact acyclic y circle

/-- Members without a circle of needs are all placed. -/
theorem mem_placed_of_acyclic [Std.TransOrd α] (acyclic : g.Acyclic members)
    (nodes : members ⊆ g.nodes) {s : Sweep α} (underway : Underway g members [] s) {x : α}
    (member : x ∈ members) : x ∈ g.placed s :=
  (stalled_placed nodes underway).subset_of_acyclic acyclic member

/-! ### The least order -/

omit [Std.LawfulEqOrd α] in
/-- An order can be placed one member after another. -/
theorem Ordered.follows (ordered : Ordered g members order) : Follows g members [] order := by
  have rest {before later : List α} (split : order = before ++ later) :
      Follows g members before.reverse later := by
    induction later generalizing before with
    | nil => exact .nil _
    | cons x later ih =>
      have next : Follows g members (before ++ [x]).reverse later := ih (by rw [split]; simp)
      rw [List.reverse_append] at next
      refine .cons ?_ ?_ ?_ next
      · apply (ordered.all x).mp
        rw [split]
        exact List.mem_append_right _ List.mem_cons_self
      · intro twice
        have once := ordered.once
        rw [split] at once
        exact List.disjoint_of_nodup_append once (List.mem_reverse.mp twice) List.mem_cons_self
      · intro u need member
        exact List.mem_reverse.mpr (ordered.after before x later split u need member)
  exact rest (List.nil_append order).symm

/-- What a sweep places comes before every other order of what is left, or is that order. -/
theorem placed_least [Std.TransOrd α] (nodes : members ⊆ g.nodes) {s : Sweep α}
    (underway : Underway g members placed s) {other : List α}
    (follows : Follows g members placed other) (covers : ∀ x ∈ members, x ∈ placed ∨ x ∈ other) :
    g.placed s = other ∨ List.Lex (fun a b => compare a b = .lt) (g.placed s) other := by
  induction s using DependencyGraph.placed.induct g generalizing placed other with
  | case1 w =>
    rw [DependencyGraph.placed]
    cases follows with
    | nil => exact .inl rfl
    | cons _ _ _ _ => exact .inr .nil
  | case2 w x rest ih =>
    rw [DependencyGraph.placed]
    obtain ⟨⟨member, _⟩, new, _⟩ := (underway.ready x).mp List.mem_cons_self
    cases follows with
    | nil => exact absurd ((covers x member).resolve_left new) List.not_mem_nil
    | @cons _ other y first fresh after follows =>
      -- The first of the other order needs nothing that is not placed, so it is ready, and `x` is
      -- the least.
      have ready : y ∈ x :: rest :=
        (underway.ready y).mpr ⟨⟨first, nodes first⟩, fresh, pending_eq_zero_iff.mpr after⟩
      rcases List.mem_cons.mp ready with rfl | greater
      · have covers' : ∀ z ∈ members, z ∈ y :: placed ∨ z ∈ other := by
          intro z there
          rcases covers z there with old | left
          · exact .inl (List.mem_cons_of_mem _ old)
          · rcases List.mem_cons.mp left with rfl | left
            · exact .inl List.mem_cons_self
            · exact .inr left
        rcases ih underway.place follows covers' with same | less
        · exact .inl (congrArg (y :: ·) same)
        · exact .inr (.cons less)
      · exact .inr (.rel ((List.pairwise_cons.mp underway.ascending).1 y greater))

omit [Std.LawfulEqOrd α] in
/-- Every state of a sweep says how many prerequisites each member still waits for. -/
theorem exists_underway [Std.TransOrd α] [Std.LawfulEqOrd α] {s s' : Sweep α}
    (underway : Underway g members placed s) (run : Relation.ReflTransGen g.Places s s') :
    ∃ placed', Underway g members placed' s' := by
  induction run with
  | refl => exact ⟨placed, underway⟩
  | tail _ step ih =>
    obtain ⟨placed', underway'⟩ := ih
    cases step with
    | least x w rest => exact ⟨x :: placed', underway'.place⟩

/-! ### Sets of members -/

omit [DecidableEq α] in
/-- The order in which members are given does not change what they need of each other. -/
theorem needsWithin_ascending : g.NeedsWithin (ascending members) = g.NeedsWithin members := by
  funext a b
  simp only [NeedsWithin, mem_ascending]

omit [DecidableEq α] in
/-- Nor does it change which of them cannot be placed. -/
theorem stalled_ascending : Stalled g (ascending members) placed ↔ Stalled g members placed := by
  simp only [Stalled, needsWithin_ascending, mem_ascending]

private theorem ordered_ascending : Ordered g (ascending members) order ↔
    Ordered g members order := by
  constructor
  · intro ordered
    exact ⟨ordered.once, by simpa only [mem_ascending] using ordered.all,
      by simpa only [mem_ascending] using ordered.after⟩
  · intro ordered
    exact ⟨ordered.once, by simpa only [mem_ascending] using ordered.all,
      by simpa only [mem_ascending] using ordered.after⟩

/-- If all members are placed, that is the order. -/
theorem orderOf_of_placed [Std.TransOrd α]
    (all : ∀ x ∈ ascending members, x ∈ g.placed (g.start (ascending members))) :
    g.orderOf members = .ok (g.placed (g.start (ascending members))) := by
  have enough : (ascending members).length ≤ (g.placed (g.start (ascending members))).length :=
    (List.subperm_of_subset (ascending_spec members).nodup all).length_le
  simp only [orderOf]
  rw [if_neg (Nat.not_lt.mpr enough)]

/-- There is an order exactly if the members have no circle of needs. -/
theorem exists_orderOf_iff [Std.TransOrd α] (nodes : members ⊆ g.nodes) :
    (∃ order, g.orderOf members = .ok order) ↔ g.Acyclic members := by
  constructor
  · rintro ⟨order, found⟩
    exact (orderOf_ok found).acyclic
  · intro acyclic
    refine ⟨_, orderOf_of_placed fun x member => ?_⟩
    have nodes' : ascending members ⊆ g.nodes := fun y there => nodes (mem_ascending.mp there)
    apply mem_placed_of_acyclic _ nodes' (underway_start (ascending_spec members)) member
    rw [Acyclic, needsWithin_ascending]
    exact acyclic

end

/-- Dependency order is the least topological order. For members that are nodes there is an order
exactly if no chain of needs among them leads back to where it began; the order that is found is
then the least of all; and on the way no member ever waits for fewer than none. -/
theorem orderOf_least [Std.TransOrd α] [Std.LawfulEqOrd α] (g : DependencyGraph α)
    {members : List α} (nodes : members ⊆ g.nodes) :
    ((∃ order, g.orderOf members = .ok order) ↔ g.Acyclic members) ∧
    (∀ order, g.orderOf members = .ok order → LeastOrder g members order) ∧
    ∀ s, Relation.ReflTransGen g.Places (g.start (ascending members)) s →
      ∀ w ∈ s.waiting, 0 ≤ w.2 := by
  have start : Underway g (ascending members) [] (g.start (ascending members)) :=
    underway_start (ascending_spec members)
  have nodes' : ascending members ⊆ g.nodes := fun x member => nodes (mem_ascending.mp member)
  have found (acyclic : g.Acyclic members) :
      g.orderOf members = .ok (g.placed (g.start (ascending members))) := by
    apply orderOf_of_placed
    intro x member
    apply mem_placed_of_acyclic _ nodes' start member
    rw [Acyclic, needsWithin_ascending]
    exact acyclic
  refine ⟨⟨?_, fun acyclic => ⟨_, found acyclic⟩⟩, ?_, ?_⟩
  · rintro ⟨order, is⟩
    exact (orderOf_ok is).acyclic
  · intro order is
    have ordered := orderOf_ok is
    obtain rfl : g.placed (g.start (ascending members)) = order :=
      Except.ok.inj ((found ordered.acyclic).symm.trans is)
    refine ⟨ordered, ?_⟩
    intro other ordered'
    apply placed_least nodes' start (ordered_ascending.mpr ordered').follows
    intro x member
    exact .inr ((ordered'.all x).mpr (mem_ascending.mp member))
  · intro s run w waits
    obtain ⟨placed, underway⟩ := exists_underway start run
    rw [underway.waiting] at waits
    obtain ⟨m, _, rfl⟩ := List.mem_map.mp waits
    exact Int.natCast_nonneg _

/-- Deliveries need orders and orders need customers, which is said twice; products need nothing,
and totals need themselves. -/
def deliveries : DependencyGraph DatasetKey :=
  DependencyGraph.empty
    |>.addDependency ⟨"core", "deliveries"⟩ ⟨"core", "orders"⟩
    |>.addDependency ⟨"core", "orders"⟩ ⟨"core", "customers"⟩
    |>.addDependency ⟨"core", "orders"⟩ ⟨"core", "customers"⟩
    |>.addNode ⟨"core", "products"⟩
    |>.addDependency ⟨"core", "totals"⟩ ⟨"core", "totals"⟩

/-- All of them but the totals. -/
def deliveredMembers : List DatasetKey :=
  [⟨"core", "deliveries"⟩, ⟨"core", "products"⟩, ⟨"core", "orders"⟩, ⟨"core", "customers"⟩]

/-- The deliveries come in the least order that there is. -/
theorem orderOf_least_for_deliveries :
    deliveredMembers ⊆ deliveries.nodes ∧
    ((∃ order, deliveries.orderOf deliveredMembers = .ok order) ↔
      deliveries.Acyclic deliveredMembers) ∧
    (∀ order, deliveries.orderOf deliveredMembers = .ok order →
      LeastOrder deliveries deliveredMembers order) ∧
    ∀ s, Relation.ReflTransGen deliveries.Places (deliveries.start (ascending deliveredMembers)) s →
      ∀ w ∈ s.waiting, 0 ≤ w.2 := by
  have nodes : deliveredMembers ⊆ deliveries.nodes := by decide
  exact ⟨nodes, orderOf_least deliveries nodes⟩

end Warehouse.DependencyGraph
