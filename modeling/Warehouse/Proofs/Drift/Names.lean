/-
Module: Warehouse.Proofs.Drift.Names
Purpose: Under which names the columns of a table stand while the steps of a plan are taken. A step
  gives a name to at most one column and takes one from at most one; all other names stay as they
  are, however a look-up spells them.
Trusted boundary: none
Main exports: spelled, DriftStep.taken?, DriftStep.given?, spelled_onColumns?, spelled_run
-/
import Warehouse.Proofs.Drift.Change

namespace Warehouse

open Sql (ColumnSpec DataType Dialect)

/-- The names of columns that are `lower` in small letters, in the order of the columns. -/
def spelled (columns : List LiveColumn) (lower : String) : List String :=
  (columns.map LiveColumn.name).filter fun name => Text.lower name = lower

/-- The name that a step takes from a column. -/
def DriftStep.taken? : DriftStep → Option String
  | .renameColumn _ _ former _ => some former
  | _ => none

/-- The name that a step gives to a column. -/
def DriftStep.given? : DriftStep → Option String
  | .renameColumn _ _ _ name => some name
  | .addColumn _ _ column => some column.name
  | _ => none

/-- Whether a step takes a name away that is `lower` in small letters. -/
def DriftStep.takes (lower : String) (s : DriftStep) : Bool :=
  match s.taken? with
  | some name => Text.lower name = lower
  | none => false

/-! ### Changing one element -/

section

variable {α : Type} {p q : α → Bool} {f : α → α}

/-- An element that is not looked for, before and after its change, does not show in a selection. -/
private theorem filter_changeLast_of_apart (apart : ∀ x, p x = true → q x = false ∧ q (f x) = false)
    (xs : List α) : (changeLast p f xs).filter q = xs.filter q := by
  induction xs with
  | nil => rfl
  | cons x rest ih =>
    rw [changeLast]
    split
    · rw [List.filter_cons, List.filter_cons, ih]
    · split
      · next here => simp [apart x here]
      · rfl

/-- Of the elements that satisfy the condition of a change, the last one is lost if it satisfies it
no more. -/
theorem filter_changeLast_self (lost : ∀ x, p (f x) = false) (xs : List α) :
    (changeLast p f xs).filter p = (xs.filter p).dropLast := by
  induction xs with
  | nil => rfl
  | cons x rest ih =>
    rw [changeLast]
    by_cases later : rest.any p
    · have more : rest.filter p ≠ [] := by
        rw [List.any_eq_true] at later
        obtain ⟨y, member, holds⟩ := later
        exact List.ne_nil_of_mem (List.mem_filter.mpr ⟨member, holds⟩)
      rw [if_pos later, List.filter_cons, List.filter_cons, ih]
      split
      · rw [List.dropLast_cons_of_ne_nil more]
      · rfl
    · have none_later : rest.filter p = [] := by
        rw [List.filter_eq_nil_iff]
        intro y member holds
        exact later (List.any_eq_true.mpr ⟨y, member, holds⟩)
      rw [if_neg later]
      by_cases here : p x
      · rw [if_pos here, List.filter_cons_of_neg (by simp [lost x]),
          List.filter_cons_of_pos here, none_later]
        rfl
      · rw [if_neg here, List.filter_cons_of_neg here, none_later]
        rfl

end

/-! ### Names of columns -/

section

variable {dialect : Dialect} {lower : String} {columns columns' : List LiveColumn}

/-- The spellings of a name are the names that agree with it in small letters. -/
theorem spelled_eq_map_filter (columns : List LiveColumn) (lower : String) :
    spelled columns lower =
      (columns.filter fun c => Text.lower c.name = lower).map LiveColumn.name := by
  rw [spelled, List.filter_map]
  rfl

/-- The column that is found has the last of the names. -/
theorem name_liveColumn? (columns : List LiveColumn) (lower : String) :
    (liveColumn? columns lower).map LiveColumn.name = (spelled columns lower).getLast? := by
  rw [spelled_eq_map_filter, List.getLast?_map, List.getLast?_filter, liveColumn?]

/-- A name that a step does not give stays as it was, unless the step takes it: then the last column
of that name has it no more. -/
theorem spelled_onColumns? {s : DriftStep} (taken : s.onColumns? dialect columns = some columns')
    (fresh : ∀ name ∈ s.given?, Text.lower name ≠ lower) :
    spelled columns' lower =
      if s.takes lower then (spelled columns lower).dropLast else spelled columns lower := by
  cases s with
  | ensureSchema schema =>
    cases taken
    rfl
  | renameTable schema former name =>
    cases taken
    rfl
  | renameColumn schema table former name =>
    have other : Text.lower name ≠ lower := fresh name rfl
    simp only [DriftStep.onColumns?, renameColumn?] at taken
    split at taken
    · cases taken
      rw [spelled_eq_map_filter, spelled_eq_map_filter, changeColumn]
      by_cases here : Text.lower former = lower
      · have takes : DriftStep.takes lower (.renameColumn schema table former name) = true :=
          decide_eq_true here
        rw [if_pos takes, ← List.map_dropLast, here, filter_changeLast_self]
        intro c
        simpa using other
      · have leaves : DriftStep.takes lower (.renameColumn schema table former name) = false :=
          decide_eq_false here
        rw [leaves, if_neg Bool.false_ne_true, filter_changeLast_of_apart]
        intro c renamed
        have same : Text.lower c.name = Text.lower former := by simpa using renamed
        exact ⟨by simpa [same] using here, by simpa using other⟩
    · cases taken
  | addColumn schema table column =>
    have other : Text.lower column.name ≠ lower := fresh column.name rfl
    simp only [DriftStep.onColumns?, addColumn?] at taken
    split at taken
    · cases taken
    · cases taken
      have leaves : DriftStep.takes lower (.addColumn schema table column) = false := rfl
      rw [leaves, if_neg Bool.false_ne_true, spelled, List.map_append, List.filter_append]
      simp [spelled, addedColumn, other]
  | alterColumnType schema table column type =>
    simp only [DriftStep.onColumns?, retypeColumn?] at taken
    split at taken
    · cases taken
      have leaves : DriftStep.takes lower (.alterColumnType schema table column type) = false := rfl
      rw [leaves, if_neg Bool.false_ne_true, spelled, spelled, changeColumn, map_changeLast]
      intro c
      rfl
    · cases taken

/-- While steps are taken that do not give a name, each that takes it away leaves one column less of
that name. -/
theorem spelled_run {steps : List DriftStep}
    (run : steps.foldlM (fun cs s => s.onColumns? dialect cs) columns = some columns')
    (fresh : ∀ s ∈ steps, ∀ name ∈ s.given?, Text.lower name ≠ lower) :
    spelled columns' lower = (spelled columns lower).take
      ((spelled columns lower).length - steps.countP (DriftStep.takes lower)) := by
  induction steps generalizing columns with
  | nil =>
    cases run
    simp
  | cons s rest ih =>
    rw [List.foldlM_cons] at run
    obtain ⟨columns₁, first, run⟩ := Option.bind_eq_some_iff.mp run
    have later := ih run fun s' member => fresh s' (List.mem_cons_of_mem _ member)
    rw [later, spelled_onColumns? first (fresh s List.mem_cons_self), List.countP_cons]
    cases DriftStep.takes lower s with
    | true =>
      simp only [if_true, List.dropLast_eq_take, List.take_take, List.length_take]
      congr 1
      omega
    | false => simp

end

end Warehouse
