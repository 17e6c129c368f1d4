/-
Module: Warehouse.Proofs.Sql.Outputs
Purpose: The columns that a query returns, in order, where each table has known columns. A star
  stands for all columns of what the query reads; a star under a name stands for them only if what
  is read goes by that name. Through stars a query may pass on the columns of a table at the front
  of its result, in the order that they have there.
Trusted boundary: human-reviewed spec (which columns a database returns)
Main exports: Layout, Source.name, SelectItem.outputs, Plan.outputs, Plan.passed?, Plan.unions
-/
import Mathlib.Data.List.Basic
import Warehouse.Sql.Expr

namespace Warehouse.Sql

/-- The columns of each table, in order. -/
abbrev Layout := ObjectName → List String

/-- The name that the columns of a source can be qualified with. -/
def Source.name : Source → String
  | .table t => t.alias?.getD t.table.name
  | .subquery _ name => name

/-- The columns that an item of a `SELECT` adds to the result, if it reads something of that name
and with those columns. A column that no name is known for is there too, as `none`. -/
def SelectItem.outputs (source : Option String) (columns : List (Option String))
    (item : SelectItem) : List (Option String) :=
  match item.alias?, item.expr with
  | none, .star none => columns
  | none, .star (some name) => if source = some name then columns else [none]
  | _, _ => [item.outputName?]

mutual

/-- The columns that can be read from a source. -/
def Source.outputs? (layout : Layout) : Option Source → List (Option String)
  | none => []
  | some (.table t) => (layout t.table).map some
  | some (.subquery q _) => q.outputs layout

/-- The columns that a `SELECT` returns. -/
def Select.outputs (layout : Layout) : Select → List (Option String)
  | ⟨_, items, source, _, _⟩ =>
    items.flatMap (SelectItem.outputs (source.map Source.name) (Source.outputs? layout source))

/-- The columns of the first `SELECT` of several. -/
def Select.outputsOfFirst (layout : Layout) : List Select → List (Option String)
  | [] => []
  | s :: _ => s.outputs layout

/-- The columns that a query returns. Those of a union are named by its first branch. -/
def Plan.outputs (layout : Layout) : Plan → List (Option String)
  | .select s => s.outputs layout
  | .union ss _ => Select.outputsOfFirst layout ss

end

/-- Whether an item is a star. -/
def SelectItem.isStar (item : SelectItem) : Bool :=
  match item.alias?, item.expr with
  | none, .star _ => true
  | _, _ => false

mutual

/-- The table whose columns come first in a source. -/
def Source.passed? : Option Source → Option ObjectName
  | none => none
  | some (.table t) => some t.table
  | some (.subquery q _) => q.passed?

/-- The table whose columns a `SELECT` passes on at the front of its result. -/
def Select.passed? : Select → Option ObjectName
  | ⟨_, items, source, _, _⟩ =>
    if items.head?.any SelectItem.isStar then Source.passed? source else none

def Select.passedByFirst? : List Select → Option ObjectName
  | [] => none
  | s :: _ => s.passed?

/-- The table whose columns a query passes on at the front of its result. -/
def Plan.passed? : Plan → Option ObjectName
  | .select s => s.passed?
  | .union ss _ => Select.passedByFirst? ss

end

mutual

/-- The unions in a source. -/
def Source.unions : Option Source → List (List Select)
  | none => []
  | some (.table _) => []
  | some (.subquery q _) => q.unions

/-- The unions that a `SELECT` reads. -/
def Select.unions : Select → List (List Select)
  | ⟨_, _, source, _, _⟩ => Source.unions source

def Select.unionsOfAll : List Select → List (List Select)
  | [] => []
  | s :: ss => s.unions ++ Select.unionsOfAll ss

/-- The unions in a query, each as the list of its branches: the query itself, if it is one, and all
those that are read at some depth. -/
def Plan.unions : Plan → List (List Select)
  | .select s => s.unions
  | .union ss _ => ss :: Select.unionsOfAll ss

end

theorem Select.mem_unionsOfAll {ss : List Select} {branches : List Select} :
    branches ∈ Select.unionsOfAll ss ↔ ∃ s ∈ ss, branches ∈ s.unions := by
  induction ss with
  | nil => simp [Select.unionsOfAll]
  | cons s ss ih => rw [Select.unionsOfAll, List.mem_append, ih, List.exists_mem_cons_iff]

/-! ### Items with a name

An item with a name has this one output, whatever the source gives. -/

section

variable {source : Option String} {columns : List (Option String)}

/-- An item that has a name returns one column, under that name. -/
theorem SelectItem.outputs_of_named {item : SelectItem} {name : String}
    (named : item.outputName? = some name) : item.outputs source columns = [some name] := by
  obtain ⟨expr, alias?⟩ := item
  cases alias? with
  | some other => rw [← named]; rfl
  | none =>
    cases expr with
    | column table other => rw [← named]; rfl
    | _ => cases named

/-- Items with names have these names as their outputs, in order. -/
theorem SelectItem.flatMap_outputs_of_named {α : Type} {f : α → SelectItem} {g : α → String}
    (named : ∀ x, (f x).outputName? = some (g x)) (xs : List α) :
    (xs.map f).flatMap (SelectItem.outputs source columns) = (xs.map g).map some := by
  induction xs with
  | nil => rfl
  | cons x xs ih =>
    rw [List.map_cons, List.flatMap_cons, outputs_of_named (named x), ih]
    rfl

end

end Warehouse.Sql
