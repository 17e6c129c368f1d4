/-
Module: Warehouse.Proofs.Run.MirroredDiff
Purpose: How two runs differ reads the same from either side. The names of one run are gone through
  and looked up in the other; as both are gone through in the order of their names, those that both
  runs have come in one order whichever of the two is gone through.
Trusted boundary: none
Main exports: FieldChange.mirrored, SnapshotDiff.mirrored, mirrored_flatMap, between_mirrored
-/
import Warehouse.Proofs.Run.SnapshotDiff

namespace Warehouse

/-- The change back. -/
def FieldChange.mirrored (c : FieldChange) : FieldChange :=
  { c with before := c.after, after := c.before }

/-- The difference with the two runs exchanged. -/
def SnapshotDiff.mirrored (d : SnapshotDiff) : SnapshotDiff where
  added := d.removed
  removed := d.added
  orderChanged := d.orderChanged
  dependencyChanges := d.dependencyChanges.map FieldChange.mirrored
  policyChanges := d.policyChanges.map FieldChange.mirrored
  transitions := d.transitions.map FieldChange.mirrored

/-- A change of a field, seen from the other side, is the change back. -/
theorem mirrored_changeOf (field before after : String) :
    (changeOf field before after).map FieldChange.mirrored = changeOf field after before := by
  rw [changeOf, changeOf]
  by_cases same : before = after
  · rw [if_pos same, if_pos same.symm, List.map_nil]
  · rw [if_neg same, if_neg fun back => same back.symm, List.map_singleton]
    rfl

/-- So is a change of what the run was started with. -/
theorem mirrored_contextChanges (before after : RunContext) :
    (contextChanges before after).map FieldChange.mirrored = contextChanges after before := by
  simp only [contextChanges, RunContext.fields, List.zip_cons_cons, List.zip_nil_left,
    List.flatMap_cons, List.flatMap_nil, List.map_append, List.map_nil, mirrored_changeOf]

/-! ### Names of both runs -/

/-- The names that two lists share come in one order, whichever of the lists is gone through. -/
theorem filter_ascending_comm (xs ys : List String) :
    (ascending xs).filter (· ∈ ys) = (ascending ys).filter (· ∈ xs) := by
  refine Ascending.eq_of_mem_iff ((ascending_spec xs).filter _)
    ((ascending_spec ys).filter _) fun n => ?_
  simp only [List.mem_filter, mem_ascending, decide_eq_true_eq]
  exact and_comm

/-- Names for which there is nothing may be left out. -/
theorem flatMap_filter_of_eq_nil {α β : Type} {p : α → Bool} {f : α → List β}
    (nothing : ∀ x, p x = false → f x = []) (xs : List α) :
    (xs.filter p).flatMap f = xs.flatMap f := by
  induction xs with
  | nil => rfl
  | cons x xs ih =>
    rw [List.flatMap_cons]
    cases kept : p x with
    | true => rw [List.filter_cons_of_pos kept, List.flatMap_cons, ih]
    | false => rw [List.filter_cons_of_neg (by simp [kept]), nothing x kept, List.nil_append, ih]

section

variable {α : Type} {name : α → String}

private theorem find?_reverse_eq_none {xs : List α} {n : String} (absent : n ∉ xs.map name) :
    (xs.reverse.find? fun x => name x = n) = none := by
  rw [List.find?_eq_none]
  intro x member named
  exact absent (List.mem_map.mpr ⟨x, List.mem_reverse.mp member, of_decide_eq_true named⟩)

/-- What is compared name by name, where there are two to compare, is mirrored by comparing from the
other side. -/
theorem mirrored_flatMap (changes : String → Option α → Option α → List FieldChange)
    (mirrors : ∀ n x y, (changes n x y).map FieldChange.mirrored = changes n y x)
    (onlyBefore : ∀ n x, changes n x none = []) (xs ys : List α) :
    ((ascending (xs.map name)).flatMap fun n =>
      changes n (xs.reverse.find? fun x => name x = n) (ys.reverse.find? fun y => name y = n)).map
        FieldChange.mirrored =
    (ascending (ys.map name)).flatMap fun n =>
      changes n (ys.reverse.find? fun y => name y = n) (xs.reverse.find? fun x => name x = n) := by
  have onlyAfter (n : String) (y : Option α) : changes n none y = [] := by
    rw [← mirrors, onlyBefore, List.map_nil]
  rw [List.map_flatMap]
  simp only [mirrors]
  rw [← flatMap_filter_of_eq_nil (p := (· ∈ ys.map name)), filter_ascending_comm,
    flatMap_filter_of_eq_nil]
  · intro n absent
    rw [find?_reverse_eq_none (of_decide_eq_false absent), onlyBefore]
  · intro n absent
    rw [find?_reverse_eq_none (of_decide_eq_false absent), onlyAfter]

end

/-! ### The parts of a difference

Each part compares what both snapshots have under a name. The names that both have are gone through
in one order, which does not depend on which snapshot comes first. -/

private theorem mirrored_inputChanges (n : String) (before after : Option RunStep) :
    (inputChanges n before after).map FieldChange.mirrored = inputChanges n after before := by
  cases before with
  | none => cases after <;> rfl
  | some b =>
    cases after with
    | none => rfl
    | some a =>
      rw [inputChanges, inputChanges]
      by_cases same : b.inputs = a.inputs
      · rw [if_pos same, if_pos same.symm, List.map_nil]
      · rw [if_neg same, if_neg fun back => same back.symm, List.map_singleton]
        rfl

private theorem mirrored_resultTransition (n : String) (before after : Option StepResult) :
    (resultTransition n before after).map FieldChange.mirrored =
      resultTransition n after before := by
  cases before with
  | none => cases after <;> rfl
  | some b =>
    cases after with
    | none => rfl
    | some a => simp only [resultTransition, resultChanges, List.map_append, mirrored_changeOf]

/-- The inputs of all common steps change back. -/
theorem mirrored_dependencyChanges (before after : PlanRecord) :
    (dependencyChanges before after).map FieldChange.mirrored = dependencyChanges after before := by
  refine mirrored_flatMap inputChanges mirrored_inputChanges
    (fun n b => ?_) before.steps after.steps
  cases b <;> rfl

/-- The results of all common datasets change back. -/
theorem mirrored_resultTransitions (before after : OutcomeRecord) :
    (resultTransitions before after).map FieldChange.mirrored = resultTransitions after before := by
  refine mirrored_flatMap resultTransition mirrored_resultTransition (fun n b => ?_) before.results
    after.results
  cases b <;> rfl

/-- What is compared with itself has not changed. -/
theorem dependencyChanges_self (p : PlanRecord) : dependencyChanges p p = [] := by
  rw [dependencyChanges, List.flatMap_eq_nil_iff]
  intro n _
  cases p.step? n with
  | none => rfl
  | some s => exact if_pos rfl

/-- Nothing becomes of a result that is compared with itself. -/
theorem resultTransitions_self (o : OutcomeRecord) : resultTransitions o o = [] := by
  rw [resultTransitions, List.flatMap_eq_nil_iff]
  intro n _
  cases o.result? n with
  | none => rfl
  | some r => exact resultChanges_eq_nil_iff.mpr ⟨rfl, rfl, rfl⟩

/-- The difference of two snapshots, whatever steps and results they have, is mirrored when the two
are exchanged: what was added is removed, and each change is the change back, in the same place. A
snapshot does not differ from itself. -/
theorem between_mirrored (before after : RunSnapshot) :
    SnapshotDiff.between after before = (SnapshotDiff.between before after).mirrored ∧
      (SnapshotDiff.between before before).isEmpty = true := by
  constructor
  · have order : decide (commonOrder after.plan before.plan ≠ commonOrder before.plan after.plan) =
        decide (commonOrder before.plan after.plan ≠ commonOrder after.plan before.plan) :=
      decide_eq_decide.mpr ne_comm
    simp only [SnapshotDiff.between, SnapshotDiff.mirrored, mirrored_dependencyChanges,
      mirrored_contextChanges, mirrored_resultTransitions, order]
  · rw [isEmpty_iff]
    have added : stepsOnlyIn before.plan before.plan = [] :=
      stepsOnlyIn_eq_nil_iff.mpr (List.Subset.refl _)
    have context : before.context.Agrees before.context := ⟨rfl, rfl, rfl, rfl, rfl, rfl, rfl⟩
    exact ⟨⟨added, added, decide_eq_false fun moved => moved rfl⟩, dependencyChanges_self _,
      contextChanges_eq_nil_iff.mpr context, resultTransitions_self _⟩

end Warehouse
