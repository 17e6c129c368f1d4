/-
Module: Warehouse.Proofs.Graph.Order
Purpose: An order has all its members, each once and after what it needs. On the way every member
  waits for as many as it needs and are not placed yet, and the ready are those that wait for none;
  placing one of them keeps that so.
Trusted boundary: none
Main exports: DependencyGraph.pending, Underway, Underway.place, Follows, follows_placed, Ordered,
  orderOf_ok
-/
import Mathlib.Data.List.Perm.Subperm
import Warehouse.Graph.Order
import Warehouse.Proofs.Graph.Dependency

namespace Warehouse.DependencyGraph

variable {α : Type} [DecidableEq α] [Ord α]

/-- How many of the members that `x` needs are not among the placed. -/
def pending (g : DependencyGraph α) (members placed : List α) (x : α) : Nat :=
  (g.prerequisites x).countP fun u => u ∈ members ∧ u ∉ placed

/-- What a state says, once some members are placed: for how many each member waits, and which of
them are ready. The placed themselves wait for nothing any more. -/
structure Underway (g : DependencyGraph α) (members placed : List α) (s : Sweep α) : Prop where
  waiting : s.waiting = (members.filter g.contains).map fun m =>
    (m, (g.pending members placed m : Int))
  ready : ∀ x, x ∈ s.ready ↔
    (x ∈ members ∧ x ∈ g.nodes) ∧ x ∉ placed ∧ g.pending members placed x = 0
  ascending : Ascending s.ready
  settled : ∀ x ∈ placed, g.pending members placed x = 0

/-- An order that can come after the placed: each of its members is new, and what it needs stands
before it. -/
inductive Follows (g : DependencyGraph α) (members : List α) : List α → List α → Prop where
  | nil (placed : List α) : Follows g members placed []
  | cons {placed order : List α} {x : α} (member : x ∈ members) (new : x ∉ placed)
      (after : ∀ u ∈ g.prerequisites x, u ∈ members → u ∈ placed)
      (rest : Follows g members (x :: placed) order) : Follows g members placed (x :: order)

/-- What an order of members is: all of them, each once, and each after those of them that it
needs. -/
structure Ordered (g : DependencyGraph α) (members order : List α) : Prop where
  once : order.Nodup
  all : ∀ x, x ∈ order ↔ x ∈ members
  after : ∀ before x later, order = before ++ x :: later →
    ∀ u ∈ g.prerequisites x, u ∈ members → u ∈ before

/-! ### Following -/

section

variable {g : DependencyGraph α} {members placed order : List α}

/-- Only members are placed. -/
theorem Follows.subset (follows : Follows g members placed order) : order ⊆ members := by
  induction follows with
  | nil => exact List.nil_subset _
  | cons member _ _ _ ih => exact List.cons_subset.mpr ⟨member, ih⟩

/-- Nothing is placed that was placed before. -/
theorem Follows.notMem_placed (follows : Follows g members placed order) :
    ∀ x ∈ order, x ∉ placed := by
  induction follows with
  | nil =>
    intro x member
    cases member
  | cons _ new _ _ ih =>
    intro y member
    rcases List.mem_cons.mp member with rfl | later
    · exact new
    · exact fun old => ih y later (List.mem_cons_of_mem _ old)

/-- Nothing is placed twice. -/
theorem Follows.nodup (follows : Follows g members placed order) : order.Nodup := by
  induction follows with
  | nil => exact List.nodup_nil
  | cons _ _ _ rest ih =>
    exact List.nodup_cons.mpr ⟨fun again => rest.notMem_placed _ again List.mem_cons_self, ih⟩

/-- Whatever is placed, what it needs of the members was placed before it. -/
theorem Follows.after (follows : Follows g members placed order) {before later : List α} {x : α}
    (split : order = before ++ x :: later) {u : α} (need : u ∈ g.prerequisites x)
    (member : u ∈ members) :
    u ∈ placed ∨ u ∈ before := by
  induction follows generalizing before with
  | nil => cases before <;> cases split
  | cons _ _ after _ ih =>
    cases before with
    | nil =>
      cases split
      exact .inl (after u need member)
    | cons y before =>
      obtain ⟨rfl, tail⟩ := List.cons.inj split
      rcases ih tail with old | earlier
      · rcases List.mem_cons.mp old with rfl | old
        · exact .inr List.mem_cons_self
        · exact .inl old
      · exact .inr (List.mem_cons_of_mem _ earlier)

end

/-! ### What is waited for

For each member it is counted how many of its prerequisites are not placed yet. A member is ready
when the count is zero. -/

section

variable [Std.TransOrd α] [Std.LawfulEqOrd α] {g : DependencyGraph α}
    {members placed : List α} {x : α}

omit [Std.TransOrd α] [Std.LawfulEqOrd α] in
/-- Nothing is waited for just if all that is needed of the members is placed. -/
theorem pending_eq_zero_iff :
    g.pending members placed x = 0 ↔ ∀ u ∈ g.prerequisites x, u ∈ members → u ∈ placed := by
  simp [pending, List.countP_eq_zero]

/-- Placing a member is one fewer to wait for, for all that need it. -/
theorem pending_cons (member : x ∈ members) (new : x ∉ placed) (m : α) :
    g.pending members placed m =
      g.pending members (x :: placed) m + if g.isNeed m x then 1 else 0 := by
  have others : (g.prerequisites m).filter (fun u => u ∈ members ∧ u ∉ x :: placed) =
      ((g.prerequisites m).filter fun u => u ∈ members ∧ u ∉ placed).erase x := by
    rw [((nodup_prerequisites g m).filter _).erase_eq_filter, List.filter_filter]
    refine List.filter_congr fun u _ => ?_
    rw [Bool.eq_iff_iff]
    simp [List.mem_cons, not_or]
    tauto
  rw [pending, pending, List.countP_eq_length_filter, List.countP_eq_length_filter, others]
  by_cases need : g.isNeed m x
  · have waited : x ∈ (g.prerequisites m).filter fun u => u ∈ members ∧ u ∉ placed :=
      List.mem_filter.mpr ⟨isNeed_iff.mp need, by simp [member, new]⟩
    rw [if_pos need, List.length_erase_of_mem waited]
    have := List.length_pos_of_mem waited
    omega
  · rw [if_neg need, List.erase_of_not_mem]
    · rfl
    · intro waited
      exact need (isNeed_iff.mpr (List.mem_filter.mp waited).1)

/-! ### Placing one after another -/

omit [Std.TransOrd α] [Std.LawfulEqOrd α] in
/-- At the start nothing is placed, and what is waited for is counted. -/
theorem underway_start (ascends : Ascending members) : Underway g members [] (g.start members) where
  waiting := by
    simp only [start, DependencyGraph.waiting, pending, List.not_mem_nil,
      not_false_eq_true, and_true]
  ready x := by
    simp [start, DependencyGraph.waiting, pending, contains]
  ascending := by
    have ready : (g.start members).ready =
        (members.filter g.contains).filter fun m =>
        (g.prerequisites m).countP (· ∈ members) = 0 := by
      simp [start, DependencyGraph.waiting, List.filter_map, Function.comp_def]
    rw [ready]
    exact (ascends.filter _).filter _
  settled x member := by cases member

omit [Std.TransOrd α] [Std.LawfulEqOrd α] in
/-- Those that are freed wait for one member, the one that is placed. -/
theorem mem_freed {w : Waiting α} (waits : w = (members.filter g.contains).map fun m =>
    (m, (g.pending members placed m : Int))) {y : α} :
    y ∈ g.freed x w ↔
      (y ∈ members ∧ y ∈ g.nodes) ∧ g.isNeed y x = true ∧ g.pending members placed y = 1 := by
  rw [freed, waits, List.filter_map, List.map_map, List.mem_map]
  constructor
  · rintro ⟨m, member, rfl⟩
    obtain ⟨member, alone⟩ := List.mem_filter.mp member
    obtain ⟨member, node⟩ := List.mem_filter.mp member
    simp only [Function.comp_apply, Bool.and_eq_true, decide_eq_true_eq] at alone
    exact ⟨⟨member, of_decide_eq_true node⟩, alone.1, Int.ofNat.inj alone.2⟩
  · rintro ⟨⟨member, node⟩, need, alone⟩
    refine ⟨y, List.mem_filter.mpr ⟨List.mem_filter.mpr ⟨member, decide_eq_true node⟩, ?_⟩, rfl⟩
    simp only [Function.comp_apply, need, alone]
    rfl

/-- Placing a ready member keeps what a state says. -/
theorem Underway.place {w : Waiting α} {rest : List α}
    (underway : Underway g members placed ⟨w, x :: rest⟩) :
    Underway g members (x :: placed) (g.afterPlacing x w rest) := by
  obtain ⟨⟨member, node⟩, new, free⟩ := (underway.ready x).mp List.mem_cons_self
  obtain ⟨least, ascends⟩ := List.pairwise_cons.mp underway.ascending
  have ascends : Ascending rest := ascends
  have fewer (m : α) := pending_cons (g := g) member new m
  have waits : w = _ := underway.waiting
  refine ⟨?_, fun y => ?_, ascends.insertAll _, fun y old => ?_⟩
  · have waiting : (g.afterPlacing x w rest).waiting = g.release x w := rfl
    rw [waiting, release, waits, List.map_map]
    refine List.map_congr_left fun m _ => ?_
    rw [Function.comp_apply, fewer m]
    by_cases need : g.isNeed m x <;> simp [need]
  · have ready : (g.afterPlacing x w rest).ready = insertAllAscending rest (g.freed x w) := rfl
    have before := underway.ready y
    rw [ready, mem_insertAllAscending, mem_freed waits, List.mem_cons, not_or]
    constructor
    · rintro (⟨able, need, alone⟩ | later)
      · -- One that waited for `x` only was not ready, and neither `x` nor placed.
        have waited := fewer y
        rw [if_pos need, alone] at waited
        refine ⟨able, ⟨?_, fun old => ?_⟩, by omega⟩
        · rintro rfl
          omega
        · have := underway.settled y old
          omega
      · obtain ⟨able, other, none⟩ := before.mp (List.mem_cons_of_mem x later)
        have waited := fewer y
        refine ⟨able, ⟨?_, other⟩, by omega⟩
        rintro rfl
        exact underway.ascending.nodup.notMem later
    · rintro ⟨able, ⟨differs, other⟩, none⟩
      have waited := fewer y
      by_cases need : g.isNeed y x
      · rw [if_pos need, none] at waited
        exact .inl ⟨able, need, waited⟩
      · rw [if_neg need, none] at waited
        exact .inr ((List.mem_cons.mp (before.mpr ⟨able, other, waited⟩)).resolve_left differs)
  · have waited := fewer y
    rcases List.mem_cons.mp old with rfl | old
    · omega
    · have := underway.settled y old
      omega

/-- What is placed from a state on follows what was placed before. -/
theorem follows_placed {s : Sweep α} (underway : Underway g members placed s) :
    Follows g members placed (g.placed s) := by
  induction s using DependencyGraph.placed.induct g generalizing placed with
  | case1 w =>
    rw [DependencyGraph.placed]
    exact .nil placed
  | case2 w x rest ih =>
    rw [DependencyGraph.placed]
    obtain ⟨⟨member, _⟩, new, free⟩ := (underway.ready x).mp List.mem_cons_self
    exact .cons member new (pending_eq_zero_iff.mp free) (ih underway.place)

/-- An order that is found is one. -/
theorem orderOf_ok {order : List α} (found : g.orderOf members = .ok order) :
    Ordered g members order := by
  simp only [orderOf] at found
  have follows := follows_placed (underway_start (g := g) (ascending_spec members))
  split at found
  · cases found
  · next full =>
    cases found
    have perm : (g.placed (g.start (ascending members))).Perm (ascending members) :=
      (List.subperm_of_subset follows.nodup follows.subset).perm_of_length_le
        (Nat.le_of_not_lt full)
    refine ⟨follows.nodup, fun x => by rw [perm.mem_iff, mem_ascending], ?_⟩
    intro before x later split u need member
    exact (follows.after split need (mem_ascending.mpr member)).resolve_left List.not_mem_nil

end

end Warehouse.DependencyGraph
