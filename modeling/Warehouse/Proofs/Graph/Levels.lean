/-
Module: Warehouse.Proofs.Graph.Levels
Purpose: Levels have all their members, each once, and each in the level after the last of those
  that it needs. A level is placed member by member; when it is placed, those are ready whose last
  prerequisites stood in it. So every level holds just the members that all levels before it leave
  waiting for nothing.
Trusted boundary: none
Main exports: levelOf, Levelled, Layered, Underway.placeLevel, layered_levelsFrom,
  exists_levelsOf_iff, levelled_of_levelsOf
-/
import Warehouse.Proofs.Graph.LeastOrder

namespace Warehouse

/-- The level in which an element stands, the first level being 0. -/
def levelOf {α : Type} [DecidableEq α] (levels : List (List α)) (x : α) : Nat :=
  levels.findIdx fun level => x ∈ level

namespace DependencyGraph

variable {α : Type} [DecidableEq α] [Ord α]

/-- What the levels of members are: all of the members, each once, in the level after the last of
those members that it needs, and in the first if it needs none. -/
structure Levelled (g : DependencyGraph α) (members : List α) (levels : List (List α)) : Prop where
  once : levels.flatten.Nodup
  all : ∀ x, x ∈ levels.flatten ↔ x ∈ members
  before : ∀ x ∈ members, ∀ u ∈ g.prerequisites x, u ∈ members → levelOf levels u < levelOf levels x
  next : ∀ x ∈ members, levelOf levels x = 0 ∨
    ∃ u ∈ g.prerequisites x, u ∈ members ∧ levelOf levels x = levelOf levels u + 1

/-- Whether `x` is a member that can be placed after the placed: it is new, and what it needs is
placed. -/
structure Free (g : DependencyGraph α) (members placed : List α) (x : α) : Prop where
  member : x ∈ members
  node : x ∈ g.nodes
  new : x ∉ placed
  after : ∀ u ∈ g.prerequisites x, u ∈ members → u ∈ placed

/-- Levels that come after the placed: each has all that is free when those before it are placed,
until nothing is. -/
inductive Layered (g : DependencyGraph α) (members : List α) : List α → List (List α) → Prop where
  | nil {placed : List α} (done : ∀ x, ¬ Free g members placed x) : Layered g members placed []
  | cons {placed level : List α} {levels : List (List α)}
    (free : ∀ x, x ∈ level ↔ Free g members placed x)
      (once : level.Nodup) (rest : Layered g members (level.reverse ++ placed) levels) :
      Layered g members placed (level :: levels)

/-! ### The level of an element -/

section

omit [Ord α]

variable {level : List α} {levels : List (List α)} {x : α}

/-- What is in the first level has the level zero. -/
theorem levelOf_cons_of_mem (member : x ∈ level) : levelOf (level :: levels) x = 0 := by
  rw [levelOf, List.findIdx_cons, decide_eq_true member]
  rfl

/-- What is not in the first level is one level higher than without it. -/
theorem levelOf_cons_of_notMem (later : x ∉ level) :
    levelOf (level :: levels) x = levelOf levels x + 1 := by
  rw [levelOf, List.findIdx_cons, decide_eq_false later]
  rfl

end

section

variable {g : DependencyGraph α} {members : List α} {levels : List (List α)} {x : α}

/-- In the first level stand those members that need no other. -/
theorem Levelled.levelOf_eq_zero_iff (levelled : g.Levelled members levels) (member : x ∈ members) :
    levelOf levels x = 0 ↔ ∀ u ∈ g.prerequisites x, u ∉ members := by
  constructor
  · intro first u need member'
    have less := levelled.before x member u need member'
    rw [first] at less
    exact Nat.not_lt_zero _ less
  · intro none
    rcases levelled.next x member with first | ⟨u, need, member', _⟩
    · exact first
    · exact absurd member' (none u need)

/-- A member that needs another stands in the level after one that it needs. -/
theorem Levelled.exists_next (levelled : g.Levelled members levels) (member : x ∈ members) {u : α}
    (need : u ∈ g.prerequisites x) (member' : u ∈ members) :
    ∃ u ∈ g.prerequisites x, u ∈ members ∧ levelOf levels x = levelOf levels u + 1 :=
  (levelled.next x member).resolve_left fun first =>
    (levelled.levelOf_eq_zero_iff member).mp first u need member'

end

/-! ### Placing a level

A whole level is placed by placing its elements one by one. Which of the others become free does not
depend on the order in which that is done. -/

section

variable [Std.TransOrd α] [Std.LawfulEqOrd α] {g : DependencyGraph α}
    {members placed : List α} {x : α}

/-- For how many each member waits, once some are placed. -/
def waitingAfter (g : DependencyGraph α) (members placed : List α) : Waiting α :=
  (members.filter g.contains).map fun m => (m, (g.pending members placed m : Int))

private theorem release_waitingAfter (member : x ∈ members) (new : x ∉ placed) :
    g.release x (g.waitingAfter members placed) = g.waitingAfter members (x :: placed) := by
  rw [release, waitingAfter, waitingAfter, List.map_map]
  apply List.map_congr_left
  intro m _
  rw [Function.comp_apply, pending_cons member new m]
  by_cases need : g.isNeed m x <;> simp [need]

omit [Std.TransOrd α] [Std.LawfulEqOrd α] in
/-- The more is placed, the less is waited for. -/
theorem pending_le_pending {more : List α} (sub : placed ⊆ more) (m : α) :
    g.pending members more m ≤ g.pending members placed m := by
  apply List.countP_mono_left
  intro u _ waited
  obtain ⟨member, new⟩ := of_decide_eq_true waited
  exact decide_eq_true ⟨member, fun old => new (sub old)⟩

/-- One that waits for something until `x` and others are placed waits last for `x`, or still for
something when `x` is placed. -/
theorem pending_settled_iff {more : List α} (member : x ∈ members) (new : x ∉ placed)
    (sub : x :: placed ⊆ more) (y : α) :
    (g.isNeed y x = true ∧ g.pending members placed y = 1) ∨
        (0 < g.pending members (x :: placed) y ∧ g.pending members more y = 0) ↔
      0 < g.pending members placed y ∧ g.pending members more y = 0 := by
  have fewer := pending_cons (g := g) member new y
  have later : g.pending members more y ≤ g.pending members (x :: placed) y :=
    pending_le_pending sub y
  by_cases need : g.isNeed y x = true
  · rw [if_pos need] at fewer
    simp only [need, true_and]
    omega
  · rw [if_neg need] at fewer
    rw [or_iff_right fun both => need both.1, fewer, Nat.add_zero]

/-- Placing some members frees those that waited and wait no more. -/
theorem placeLevel_waitingAfter {xs ready : List α} (follow : ∀ x ∈ xs, x ∈ members ∧ x ∉ placed)
    (once : xs.Nodup) (ascends : Ascending ready) :
    (g.placeLevel ⟨g.waitingAfter members placed, ready⟩ xs).waiting =
      g.waitingAfter members (xs.reverse ++ placed) ∧
    (∀ y, y ∈ (g.placeLevel ⟨g.waitingAfter members placed, ready⟩ xs).ready ↔
      y ∈ ready ∨ (y ∈ members ∧ y ∈ g.nodes) ∧ 0 < g.pending members placed y ∧
        g.pending members (xs.reverse ++ placed) y = 0) ∧
    Ascending (g.placeLevel ⟨g.waitingAfter members placed, ready⟩ xs).ready := by
  induction xs generalizing placed ready with
  | nil =>
    refine ⟨rfl, fun y => ?_, ascends⟩
    have none : ¬ (0 < g.pending members placed y ∧ g.pending members placed y = 0) := by omega
    simp only [placeLevel, List.reverse_nil, List.nil_append, none, and_false, or_false]
  | cons x rest ih =>
    obtain ⟨member, new⟩ := follow x List.mem_cons_self
    obtain ⟨fresh, once⟩ := List.nodup_cons.mp once
    have follow' : ∀ y ∈ rest, y ∈ members ∧ y ∉ x :: placed := by
      intro y later
      obtain ⟨member', new'⟩ := follow y (List.mem_cons_of_mem x later)
      refine ⟨member', fun old => ?_⟩
      rcases List.mem_cons.mp old with rfl | old
      · exact fresh later
      · exact new' old
    obtain ⟨waits, readies, ascends'⟩ :=
      ih follow' once (ascends.insertAll (g.freed x (g.waitingAfter members placed)))
    have same : (x :: rest).reverse ++ placed = rest.reverse ++ x :: placed := by simp
    rw [placeLevel, release_waitingAfter member new, same]
    refine ⟨waits, fun y => ?_, ascends'⟩
    have frees : y ∈ g.freed x (g.waitingAfter members placed) ↔ _ := mem_freed rfl
    -- Those that `x` frees and those that a later member frees are together those that waited
    -- before `x`.
    rw [readies, mem_insertAllAscending, frees,
      ← pending_settled_iff member new (List.subset_append_right rest.reverse (x :: placed)),
      and_or_left, or_right_comm, or_comm]

/-- Placing all that is ready keeps what a state says. -/
theorem Underway.placeLevel {w : Waiting α} {level : List α}
    (underway : Underway g members placed ⟨w, level⟩) :
    Underway g members (level.reverse ++ placed) (g.placeLevel ⟨w, []⟩ level) := by
  have follow : ∀ x ∈ level, x ∈ members ∧ x ∉ placed := by
    intro x there
    obtain ⟨⟨member, _⟩, new, _⟩ := (underway.ready x).mp there
    exact ⟨member, new⟩
  have waits : w = g.waitingAfter members placed := underway.waiting
  have nothing : Ascending ([] : List α) := List.Pairwise.nil
  obtain ⟨waits', readies, ascends⟩ :=
    placeLevel_waitingAfter (g := g) follow underway.ascending.nodup nothing
  rw [← waits] at waits' readies ascends
  have less (y : α) : g.pending members (level.reverse ++ placed) y ≤ g.pending members placed y :=
    pending_le_pending (List.subset_append_right level.reverse placed) y
  refine ⟨waits', fun y => ?_, ascends, fun y old => ?_⟩
  · rw [readies, or_iff_right List.not_mem_nil, List.mem_append, List.mem_reverse, not_or]
    constructor
    · rintro ⟨able, waited, none⟩
      refine ⟨able, ⟨fun there => ?_, fun old => ?_⟩, none⟩
      · have := ((underway.ready y).mp there).2.2
        omega
      · have := underway.settled y old
        omega
    · rintro ⟨able, ⟨other, new⟩, none⟩
      refine ⟨able, Nat.pos_of_ne_zero fun settled => ?_, none⟩
      exact other ((underway.ready y).mpr ⟨able, new, settled⟩)
  · have settled : g.pending members placed y = 0 := by
      rcases List.mem_append.mp old with there | old
      · exact ((underway.ready y).mp (List.mem_reverse.mp there)).2.2
      · exact underway.settled y old
    have := less y
    omega

omit [Std.TransOrd α] [Std.LawfulEqOrd α] in
/-- The ready are the free. -/
theorem Underway.mem_ready_iff {s : Sweep α} (underway : Underway g members placed s) :
    x ∈ s.ready ↔ Free g members placed x := by
  rw [underway.ready, pending_eq_zero_iff]
  constructor
  · rintro ⟨⟨member, node⟩, new, after⟩
    exact ⟨member, node, new, after⟩
  · rintro ⟨member, node, new, after⟩
    exact ⟨⟨member, node⟩, new, after⟩

/-- The levels from a state on come after what was placed before. -/
theorem layered_levelsFrom {s : Sweep α} (underway : Underway g members placed s) :
    Layered g members placed (g.levelsFrom s) := by
  induction s using DependencyGraph.levelsFrom.induct g generalizing placed with
  | case1 w =>
    rw [levelsFrom]
    apply Layered.nil
    intro x free
    exact List.not_mem_nil (underway.mem_ready_iff.mpr free)
  | case2 w x rest ih =>
    rw [levelsFrom]
    exact .cons (fun y => underway.mem_ready_iff) underway.ascending.nodup (ih underway.placeLevel)

end

/-! ### What levels hold -/

section

variable {g : DependencyGraph α} {members placed : List α} {levels : List (List α)} {x : α}

/-- Free members can be placed one after another before all that follows them. -/
theorem Follows.append {level order : List α} (free : ∀ x ∈ level, Free g members placed x)
    (once : level.Nodup) (follows : Follows g members (level.reverse ++ placed) order) :
    Follows g members placed (level ++ order) := by
  induction level generalizing placed with
  | nil => exact follows
  | cons x level ih =>
    obtain ⟨fresh, once⟩ := List.nodup_cons.mp once
    have here := free x List.mem_cons_self
    refine .cons here.member here.new here.after (ih ?_ once ?_)
    · intro y later
      have there := free y (List.mem_cons_of_mem x later)
      refine ⟨there.member, there.node, fun old => ?_, fun u need member => ?_⟩
      · rcases List.mem_cons.mp old with rfl | old
        · exact fresh later
        · exact there.new old
      · exact List.mem_cons_of_mem x (there.after u need member)
    · rw [List.reverse_cons, List.append_assoc] at follows
      exact follows

/-- Levels one after another are an order. -/
theorem Layered.follows (layered : Layered g members placed levels) :
    Follows g members placed levels.flatten := by
  induction layered with
  | nil => exact .nil _
  | cons free once _ ih =>
    rw [List.flatten_cons]
    exact Follows.append (fun x there => (free x).mp there) once ih

/-- A member that no level holds needs another one. -/
theorem Layered.exists_needsWithin [Std.LawfulEqOrd α] (layered : Layered g members placed levels)
    (member : x ∈ members) (node : x ∈ g.nodes) (new : x ∉ placed) (left : x ∉ levels.flatten) :
    ∃ u, g.NeedsWithin members x u ∧ u ∉ placed ∧ u ∉ levels.flatten := by
  induction layered with
  | @nil placed done =>
    apply Classical.byContradiction
    intro none
    refine done x ⟨member, node, new, fun u need member' => ?_⟩
    apply Classical.byContradiction
    intro waits
    exact none ⟨u, ⟨member, member', mem_prerequisites.mp need⟩, waits, List.not_mem_nil⟩
  | @cons placed level levels _ _ _ ih =>
    rw [List.flatten_cons, List.mem_append, not_or] at left
    have new' : x ∉ level.reverse ++ placed := by
      rw [List.mem_append, List.mem_reverse, not_or]
      exact ⟨left.1, new⟩
    obtain ⟨u, need, waits, beyond⟩ := ih new' left.2
    rw [List.mem_append, List.mem_reverse, not_or] at waits
    refine ⟨u, need, waits.2, ?_⟩
    rw [List.flatten_cons, List.mem_append, not_or]
    exact ⟨waits.1, beyond⟩

/-- Levels end with all members placed or stalled. -/
theorem Layered.stalled [Std.LawfulEqOrd α] (layered : Layered g members [] levels)
    (nodes : members ⊆ g.nodes) : Stalled g members levels.flatten := by
  intro x member left
  obtain ⟨u, need, _, beyond⟩ :=
    layered.exists_needsWithin member (nodes member) List.not_mem_nil left
  exact ⟨u, need, beyond⟩

/-- In levels, what is needed was placed before or stands in an earlier level. -/
theorem Layered.before (layered : Layered g members placed levels) (there : x ∈ levels.flatten)
    {u : α} (need : u ∈ g.prerequisites x) (member : u ∈ members) :
    u ∈ placed ∨ u ∈ levels.flatten ∧ levelOf levels u < levelOf levels x := by
  induction layered with
  | nil => cases there
  | @cons placed level levels free _ rest ih =>
    rw [List.flatten_cons, List.mem_append] at there ⊢
    rcases there with here | there
    · exact .inl (((free x).mp here).after u need member)
    · have fresh := rest.follows.notMem_placed x there
      rw [List.mem_append, List.mem_reverse, not_or] at fresh
      rw [levelOf_cons_of_notMem fresh.1]
      rcases ih there with old | ⟨later, less⟩
      · rcases List.mem_append.mp old with here | old
        · have here := List.mem_reverse.mp here
          rw [levelOf_cons_of_mem here]
          exact .inr ⟨.inl here, Nat.succ_pos _⟩
        · exact .inl old
      · have fresh := rest.follows.notMem_placed u later
        rw [List.mem_append, List.mem_reverse, not_or] at fresh
        rw [levelOf_cons_of_notMem fresh.1]
        exact .inr ⟨.inr later, Nat.succ_lt_succ less⟩

/-- In levels, a member stands in the first one or right after one that it needs. -/
theorem Layered.next (layered : Layered g members placed levels) (nodes : members ⊆ g.nodes)
    (there : x ∈ levels.flatten) :
    levelOf levels x = 0 ∨
      ∃ u ∈ g.prerequisites x, u ∈ members ∧ u ∈ levels.flatten ∧
        levelOf levels x = levelOf levels u + 1 := by
  induction layered with
  | nil => cases there
  | @cons placed level levels free _ rest ih =>
    rw [List.flatten_cons, List.mem_append] at there
    rcases there with here | there
    · exact .inl (levelOf_cons_of_mem here)
    have apart {y : α} (later : y ∈ levels.flatten) : y ∉ level ∧ y ∉ placed := by
      have fresh := rest.follows.notMem_placed y later
      rwa [List.mem_append, List.mem_reverse, not_or] at fresh
    rw [levelOf_cons_of_notMem (apart there).1]
    refine .inr ?_
    rcases ih there with first | ⟨u, need, member, later, next⟩
    · -- It was not free before, so it needs a member that was not placed; that one stands in the
      -- first level.
      have member := rest.follows.subset there
      have waits : ∃ u ∈ g.prerequisites x, u ∈ members ∧ u ∉ placed := by
        apply Classical.byContradiction
        intro none
        refine (apart there).1
          ((free x).mpr ⟨member, nodes member, (apart there).2, fun u need member' => ?_⟩)
        apply Classical.byContradiction
        intro new
        exact none ⟨u, need, member', new⟩
      obtain ⟨u, need, member', new⟩ := waits
      have here : u ∈ level := by
        rcases rest.before there need member' with old | ⟨_, less⟩
        · exact List.mem_reverse.mp ((List.mem_append.mp old).resolve_right new)
        · omega
      refine ⟨u, need, member', ?_, ?_⟩
      · rw [List.flatten_cons]
        exact List.mem_append_left _ here
      · rw [first, levelOf_cons_of_mem here]
    · refine ⟨u, need, member, ?_, ?_⟩
      · rw [List.flatten_cons]
        exact List.mem_append_right _ later
      · rw [levelOf_cons_of_notMem (apart later).1, next]

end

/-! ### Levels that are found -/

section

variable [Std.TransOrd α] [Std.LawfulEqOrd α] {g : DependencyGraph α} {members : List α}

/-- The levels of members, whether or not they hold all of them. -/
theorem layered_ascending (g : DependencyGraph α) (members : List α) :
    Layered g (ascending members) [] (g.levelsFrom (g.start (ascending members))) :=
  layered_levelsFrom (underway_start (ascending_spec members))

/-- Levels that are found have all members. -/
theorem mem_flatten_of_levelsOf {levels : List (List α)} (found : g.levelsOf members = .ok levels) :
    Layered g (ascending members) [] levels ∧ ∀ x, x ∈ levels.flatten ↔ x ∈ members := by
  simp only [levelsOf] at found
  have layered := layered_ascending g members
  split at found
  · cases found
  · next full =>
    cases found
    refine ⟨layered, fun x => ?_⟩
    have perm :=
      (List.subperm_of_subset layered.follows.nodup layered.follows.subset).perm_of_length_le
        (Nat.le_of_not_lt full)
    rw [perm.mem_iff, mem_ascending]

/-- Levels that are found are levels of their members. -/
theorem levelled_of_levelsOf (nodes : members ⊆ g.nodes) {levels : List (List α)}
    (found : g.levelsOf members = .ok levels) : Levelled g members levels := by
  obtain ⟨layered, all⟩ := mem_flatten_of_levelsOf found
  have nodes' : ascending members ⊆ g.nodes := fun x member => nodes (mem_ascending.mp member)
  refine ⟨layered.follows.nodup, all, fun x member u need member' => ?_, fun x member => ?_⟩
  · have earlier := layered.before ((all x).mpr member) need (mem_ascending.mpr member')
    exact (earlier.resolve_left List.not_mem_nil).2
  · rcases layered.next nodes' ((all x).mpr member) with first | ⟨u, need, member', _, next⟩
    · exact .inl first
    · exact .inr ⟨u, need, mem_ascending.mp member', next⟩

/-- There are levels exactly if the members have no circle of needs. -/
theorem exists_levelsOf_iff (nodes : members ⊆ g.nodes) :
    (∃ levels, g.levelsOf members = .ok levels) ↔ g.Acyclic members := by
  constructor
  · rintro ⟨levels, found⟩ x circle
    have levelled := levelled_of_levelsOf nodes found
    have descends {a b : α} (chain : Relation.TransGen (g.NeedsWithin members) a b) :
        levelOf levels b < levelOf levels a := by
      induction chain with
      | single need => exact levelled.before _ need.1 _ (mem_prerequisites.mpr need.2.2) need.2.1
      | tail _ need ih =>
        exact (levelled.before _ need.1 _ (mem_prerequisites.mpr need.2.2) need.2.1).trans ih
    exact Nat.lt_irrefl _ (descends circle)
  · intro acyclic
    have acyclic' : g.Acyclic (ascending members) := by
      rw [Acyclic, needsWithin_ascending]
      exact acyclic
    have nodes' : ascending members ⊆ g.nodes := fun x member => nodes (mem_ascending.mp member)
    have all : ascending members ⊆ (g.levelsFrom (g.start (ascending members))).flatten :=
      ((layered_ascending g members).stalled nodes').subset_of_acyclic acyclic'
    have enough := (List.subperm_of_subset (ascending_spec members).nodup all).length_le
    refine ⟨g.levelsFrom (g.start (ascending members)), ?_⟩
    simp only [levelsOf]
    rw [if_neg (Nat.not_lt.mpr enough)]

end

end DependencyGraph

end Warehouse
