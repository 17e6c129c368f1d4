/-
Module: Warehouse.Proofs.Sql.Meaning
Purpose: What expressions and queries mean on tables, as far as SQL fixes it: three-valued logic,
  correlated subqueries, `EXISTS`, projections. What a product decides for itself (constants, casts,
  functions, hashes, texts that nobody has parsed) is a parameter, the engine, so that what is
  proved here holds of every product. Columns are found whatever the case of ASCII letters, as in
  the catalog; a qualified column is looked up in the row that goes by exactly that qualifier.
Trusted boundary: human-reviewed spec (what queries mean to a database)
Main exports: Truth, Row, Table, Scope, Engine, Engine.texts, World, Expr.eval, Expr.passes,
  Plan.rows
-/
import Mathlib.Data.List.Dedup
import Mathlib.Data.String.Basic
import Mathlib.Order.Defs.LinearOrder
import Warehouse.Sql.Statement

namespace Warehouse.Sql

/-! ### Truth values

Conditions are true, false or neither, as in SQL: a comparison with a value that is missing is
neither. A row passes a condition only if it is true. -/

/-- A truth value of SQL; `none` is unknown. -/
abbrev Truth : Type := Option Bool

namespace Truth

/-- Conjunction: false if either side is, and unknown if that leaves it open. -/
def and : Truth → Truth → Truth
  | some false, _ => some false
  | _, some false => some false
  | some true, some true => some true
  | _, _ => none

/-- Negation, which leaves the unknown unknown. -/
def not (t : Truth) : Truth := t.map (! ·)

/-- Disjunction, by De Morgan's law. -/
def or (s t : Truth) : Truth := (s.not.and t.not).not

/-- A comparison of two values; unknown if either is `NULL`. -/
def compare {V : Type} (test : V → V → Bool) : Option V → Option V → Truth
  | some a, some b => some (test a b)
  | _, _ => none

/-- A conjunction is true just if both conditions are. -/
theorem and_eq_true {s t : Truth} : s.and t = some true ↔ s = some true ∧ t = some true := by
  rcases s with _ | _ | _ <;> rcases t with _ | _ | _ <;> simp [and]

private theorem compare_eq_true {V : Type} {test : V → V → Bool} {a b : Option V} :
    compare test a b = some true ↔ ∃ x y, a = some x ∧ b = some y ∧ test x y = true := by
  cases a <;> cases b <;> simp [compare]

end Truth

/-! ### Rows and tables -/

/-- A row: what its columns hold, by their names in small letters; `none` is `NULL`. -/
def Row (V : Type) : Type := String → Option V

/-- The rows of a table. Their order has no meaning. -/
abbrev Table (V : Type) : Type := List (Row V)

/-- The rows in view, the innermost first, each with the name that qualifies its columns. -/
abbrev Scope (V : Type) : Type := List (ObjectName × Row V)

namespace Row

variable {V : Type}

/-- What the column of that name holds. -/
def get (r : Row V) (column : String) : Option V := r (Text.asciiLower column)

/-- The row with other values in some columns. -/
def assign (r : Row V) (values : List (String × Option V)) : Row V := fun name =>
  match values.find? fun p => Text.asciiLower p.1 = name with
  | some (_, value) => value
  | none => r name

/-- The row that holds those values and `NULL` elsewhere. -/
def ofPairs (values : List (String × Option V)) : Row V := assign (fun _ => none) values

/-- A column is found under its name in either case. -/
theorem get_congr (r : Row V) {a b : String} (same : Text.sameIgnoringAsciiCase a b = true) :
    r.get a = r.get b := by
  simp only [Text.sameIgnoringAsciiCase, beq_iff_eq] at same
  simp only [get, same]

/-- A column that is not assigned to keeps its value. -/
theorem get_assign_of_notMem (r : Row V) {values : List (String × Option V)} {column : String}
    (other : ∀ p ∈ values, Text.sameIgnoringAsciiCase p.1 column = false) :
    (r.assign values).get column = r.get column := by
  have none_found : (values.find? fun p => Text.asciiLower p.1 = Text.asciiLower column) =
      none := by
    simpa [List.find?_eq_none, Text.sameIgnoringAsciiCase] using other
  simp only [get, assign, none_found]

/-- A column that is assigned to holds the value that all assignments to it agree on. -/
theorem get_assign_of_mem (r : Row V) {values : List (String × Option V)} {column : String}
    {value : Option V} (assigned : ∃ p ∈ values, Text.sameIgnoringAsciiCase p.1 column = true)
    (agree : ∀ p ∈ values, Text.sameIgnoringAsciiCase p.1 column = true → p.2 = value) :
    (r.assign values).get column = value := by
  simp only [Text.sameIgnoringAsciiCase, beq_iff_eq] at assigned agree
  cases found : values.find? fun p => Text.asciiLower p.1 = Text.asciiLower column with
  | none =>
    obtain ⟨p, member, same⟩ := assigned
    exact absurd same (by simpa using List.find?_eq_none.mp found p member)
  | some p =>
    have same : Text.asciiLower p.1 = Text.asciiLower column := by
      simpa using List.find?_some found
    simp only [get, assign, found]
    exact agree p (List.mem_of_find?_eq_some found) same

/-- A row that is made of cells: a column holds what all cells of its name agree on. -/
theorem get_ofPairs_map {α : Type} {xs : List α} {name : α → String} {cell : α → Option V}
    {column : String} {value : Option V}
    (there : ∃ x ∈ xs, Text.sameIgnoringAsciiCase (name x) column = true)
    (agree : ∀ x ∈ xs, Text.sameIgnoringAsciiCase (name x) column = true → cell x = value) :
    (ofPairs (xs.map fun x => (name x, cell x))).get column = value := by
  refine get_assign_of_mem _ (by simpa using there) fun p member same => ?_
  obtain ⟨x, hx, rfl⟩ := List.mem_map.mp member
  exact agree x hx same

end Row

/-- What the column of a qualifier holds in a scope. A column without one is one of the innermost
row. -/
def Scope.find {V : Type} (sc : Scope V) : Option ObjectName → String → Option V
  | some qualifier, column => (sc.lookup qualifier).bind fun r => r.get column
  | none, column => sc.head?.bind fun p => p.2.get column

/-- A row under another name is passed over. -/
theorem Scope.lookup_cons_of_ne {V : Type} {name other : ObjectName} (ne : name ≠ other) (r : Row V)
    (sc : Scope V) : List.lookup name ((other, r) :: sc) = sc.lookup name := by
  simp [List.lookup_cons, beq_eq_false_iff_ne.mpr ne]

/-! ### Engines and worlds -/

/-- What an expression comes to: a value or a truth value. -/
inductive Datum (V : Type) where
  | scalar (value : Option V)
  | truth (value : Truth)

/-- What a database product decides for itself. -/
structure Engine (V : Type) where
  /-- The value of a constant. -/
  constant : Literal → Option V
  constant_null : constant .null = none
  /-- A text as a value. The empty text may be no value but `NULL`. -/
  text : String → V
  constant_string : ∀ s, s ≠ "" → constant (.string s) = some (text s)
  /-- A value that is not `NULL`, as one of another type. -/
  cast : DataType → V → Option V
  /-- Several texts in one. -/
  join : List V → V
  /-- The 256-bit hash of a text. -/
  hash : V → V
  /-- A call of a function. -/
  call : String → List (Option V) → Option V
  /-- A truth value in the place of a value, and the reverse. -/
  ofTruth : Truth → Option V
  toTruth : Option V → Truth
  /-- A text of SQL that nobody has parsed. -/
  fragment : String → Scope V → Datum V
  /-- A form that is no matter of a single row. -/
  beyond : Expr → Scope V → Option V
  /-- The result of a `SELECT` that groups or counts the rows that it has found. -/
  grouped : Select → List (Scope V) → List (List (Option V))

/-- An engine whose values are texts, for examples: it parses no fragment and leaves a text as it is
when it is to be hashed or cast. -/
def Engine.texts : Engine String where
  constant
    | .null => none
    | .bool b => some (toString b)
    | .int n => some (toString n)
    | .float x => some x.text
    | .decimal s => some s
    | .string s => some s
    | .date v => some v.text
    | .timestamp v => some v.sqlText
  constant_null := rfl
  text s := s
  constant_string _ _ := rfl
  cast _ v := some v
  join := String.join
  hash v := v
  call _ _ := none
  ofTruth t := t.map toString
  toTruth v := v.map (· == "true")
  fragment _ _ := .scalar none
  beyond _ _ := none
  grouped _ _ := []

namespace Datum

variable {V : Type}

/-- As a value. -/
def value (E : Engine V) : Datum V → Option V
  | scalar v => v
  | truth t => E.ofTruth t

/-- As a truth value. -/
def holds (E : Engine V) : Datum V → Truth
  | scalar v => E.toTruth v
  | truth t => t

@[simp] theorem value_scalar (E : Engine V) (v : Option V) : (scalar v).value E = v := rfl

@[simp] private theorem holds_truth (E : Engine V) (t : Truth) : (truth t).holds E = t := rfl

end Datum

/-- An engine, the values of a load, and what the tables hold. -/
structure World (V : Type) where
  engine : Engine V
  placeholder : Placeholder → Option V
  tables : ObjectName → Table V

namespace World

variable {V : Type}

/-- The world in which a table holds other rows. -/
def set (w : World V) (name : ObjectName) (rows : Table V) : World V :=
  { w with tables := fun n => if n = name then rows else w.tables n }

/-- To set a table leaves the engine as it is. -/
@[simp] theorem engine_set (w : World V) (name : ObjectName) (rows : Table V) :
    (w.set name rows).engine = w.engine := rfl

@[simp] theorem placeholder_set (w : World V) (name : ObjectName) (rows : Table V) :
    (w.set name rows).placeholder = w.placeholder := rfl

/-- A table that was set has the rows that it was set to. -/
@[simp] theorem tables_set_self (w : World V) (name : ObjectName) (rows : Table V) :
    (w.set name rows).tables name = rows := by simp [set]

/-- Any other table has the rows that it had. -/
theorem tables_set_of_ne (w : World V) {name other : ObjectName} (rows : Table V)
    (ne : other ≠ name) : (w.set name rows).tables other = w.tables other := by simp [set, ne]

/-- Of two tables that are set under one name the second counts. -/
@[simp] theorem set_set (w : World V) (name : ObjectName) (rows rows' : Table V) :
    (w.set name rows).set name rows' = w.set name rows' := by
  simp only [set, mk.injEq, true_and]
  funext n
  split <;> rfl

/-- Nothing is changed by setting a table to what it holds. -/
@[simp] theorem set_tables (w : World V) (name : ObjectName) : w.set name (w.tables name) = w := by
  obtain ⟨engine, placeholder, tables⟩ := w
  simp only [set, mk.injEq, true_and]
  funext n
  split
  · next same => rw [same]
  · rfl

end World

/-! ### Expressions and queries

What an expression is worth in a scope, and which rows a query has in a world, by recursion over
both at once, since an expression may ask whether a query has rows. -/

mutual

/-- Whether an expression can be computed from the rows in view: it counts nothing and stands for no
list of columns. A call may be that of a function which counts. -/
def Expr.isRowwise : Expr → Bool
  | .call .. | .rowNumber .. | .star .. => false
  | .cast e _ | .hash256 e | .not e | .isNull e _ => e.isRowwise
  | .concat es | .coalesce es => Expr.areRowwise es
  | .binary l _ r => l.isRowwise && r.isRowwise
  | _ => true

/-- `Expr.isRowwise` of several expressions. -/
def Expr.areRowwise : List Expr → Bool
  | [] => true
  | e :: es => e.isRowwise && Expr.areRowwise es

end

/-- Whether each row of the result comes from one that was found. -/
def Select.isRowwise (s : Select) : Bool :=
  s.groupBy.isEmpty && s.items.all fun i => i.expr.isRowwise

section

variable {V : Type} [LinearOrder V]

/-- What an operator makes of its sides. -/
def BinaryOp.apply (E : Engine V) (op : BinaryOp) (l r : Datum V) : Truth :=
  let test (f : V → V → Bool) : Truth := Truth.compare f (l.value E) (r.value E)
  match op with
  | .eq => test fun a b => a = b
  | .ne => test fun a b => a ≠ b
  | .lt => test fun a b => a < b
  | .gt => test fun a b => b < a
  | .lte => test fun a b => a ≤ b
  | .gte => test fun a b => b ≤ a
  | .and => (l.holds E).and (r.holds E)
  | .or => (l.holds E).or (r.holds E)

mutual

/-- What an expression comes to, given the rows in view. -/
def Expr.eval (w : World V) : Expr → Scope V → Datum V
  | .column table name, sc => .scalar (sc.find table name)
  | .literal v, _ => .scalar (w.engine.constant v)
  | .cast e t, sc => .scalar (((e.eval w sc).value w.engine).bind (w.engine.cast t))
  | .concat es, sc => .scalar (((Expr.evalAll w es sc).mapM id).map w.engine.join)
  | .coalesce es, sc => .scalar ((Expr.evalAll w es sc).findSome? id)
  | .call f es, sc => .scalar (w.engine.call f (Expr.evalAll w es sc))
  | .hash256 e, sc => .scalar (((e.eval w sc).value w.engine).map w.engine.hash)
  | .rowNumber partition order, sc => .scalar (w.engine.beyond (.rowNumber partition order) sc)
  | .binary l op r, sc => .truth (op.apply w.engine (l.eval w sc) (r.eval w sc))
  | .not e, sc => .truth ((e.eval w sc).holds w.engine).not
  | .isNull e negated, sc => .truth (some (((e.eval w sc).value w.engine).isNone != negated))
  | .exists q negated, sc => .truth (some ((q.rows w sc).isEmpty == negated))
  | .star table, sc => .scalar (w.engine.beyond (.star table) sc)
  | .placeholder p, _ => .scalar (w.placeholder p)
  | .raw s, sc => w.engine.fragment s sc

/-- The values of several expressions. -/
def Expr.evalAll (w : World V) : List Expr → Scope V → List (Option V)
  | [], _ => []
  | e :: es, sc => (e.eval w sc).value w.engine :: Expr.evalAll w es sc

/-- Whether a row passes a filter: only what is certain does. -/
def Expr.passes (w : World V) : Option Expr → Scope V → Bool
  | none, _ => true
  | some e, sc => (e.eval w sc).holds w.engine = some true

/-- The value of a column of a result. -/
def SelectItem.value (w : World V) : SelectItem → Scope V → Option V
  | ⟨e, _⟩, sc => (e.eval w sc).value w.engine

/-- The values of several columns of a result. -/
def SelectItem.values (w : World V) : List SelectItem → Scope V → List (Option V)
  | [], _ => []
  | i :: is, sc => i.value w sc :: SelectItem.values w is sc

/-- The rows of a source, each under the name that qualifies its columns. -/
def Source.frames (w : World V) : Source → Scope V → List (ObjectName × Row V)
  | .table t, _ => (w.tables t.table).map fun r => ((t.alias?.map (⟨none, ·⟩)).getD t.table, r)
  | .subquery q name, sc => (q.rows w sc).map fun vs =>
      (⟨none, name⟩, Row.ofPairs ((q.outputNames.zip vs).filterMap fun (n, v) => n.map (·, v)))

/-- What is in view for each row that a query reads. -/
def Source.scopes (w : World V) : Option Source → Scope V → List (Scope V)
  | none, sc => [sc]
  | some s, sc => (s.frames w sc).map (· :: sc)

/-- The rows of a `SELECT`. -/
def Select.rows (w : World V) : Select → Scope V → List (List (Option V))
  | ⟨distinct, items, source, filter, groupBy⟩, sc =>
    let found := (Source.scopes w source sc).filter (Expr.passes w filter)
    if (⟨distinct, items, source, filter, groupBy⟩ : Select).isRowwise then
      let rows := found.map (SelectItem.values w items)
      if distinct then rows.dedup else rows
    else w.engine.grouped ⟨distinct, items, source, filter, groupBy⟩ found

/-- The rows of several `SELECT`s, one after another. -/
def Select.rowsOfAll (w : World V) : List Select → Scope V → List (List (Option V))
  | [], _ => []
  | s :: ss, sc => s.rows w sc ++ Select.rowsOfAll w ss sc

/-- The rows of a query. -/
def Plan.rows (w : World V) : Plan → Scope V → List (List (Option V))
  | .select s, sc => s.rows w sc
  | .union ss .all, sc => Select.rowsOfAll w ss sc
  | .union ss .distinct, sc => (Select.rowsOfAll w ss sc).dedup

end

/-- Expressions are evaluated one by one. -/
theorem Expr.evalAll_eq_map (w : World V) (es : List Expr) (sc : Scope V) :
    Expr.evalAll w es sc = es.map fun e => (e.eval w sc).value w.engine := by
  induction es with
  | nil => rfl
  | cons e es ih => simp only [Expr.evalAll, ih, List.map_cons]

private theorem SelectItem.values_eq_map (w : World V) (items : List SelectItem) (sc : Scope V) :
    SelectItem.values w items sc = items.map fun i => (i.expr.eval w sc).value w.engine := by
  induction items with
  | nil => rfl
  | cons i items ih =>
    obtain ⟨e, alias?⟩ := i
    simp only [SelectItem.values, SelectItem.value, ih, List.map_cons]

/-- A `SELECT` that counts nothing and keeps duplicates has a row for each one that it has found. -/
theorem Select.rows_of_isRowwise (w : World V) {s : Select} (rowwise : s.isRowwise = true)
    (keeps : s.distinct = false) (sc : Scope V) :
    s.rows w sc = ((Source.scopes w s.source sc).filter (Expr.passes w s.filter)).map fun found =>
      s.items.map fun i => (i.expr.eval w found).value w.engine := by
  obtain ⟨distinct, items, source, filter, groupBy⟩ := s
  subst keeps
  simp only [Select.rows, rowwise, if_true, Bool.false_eq_true, if_false]
  exact List.map_congr_left fun found _ => SelectItem.values_eq_map w items found

/-! ### Expressions of single rows

An expression that reads no table has the same value in every world with the same engine and the
same placeholders, so a statement may change tables without changing what it computes. -/

mutual

/-- Whether an expression reads nothing but the rows in view. -/
def Expr.isLocal : Expr → Bool
  | .call .. | .rowNumber .. | .star .. | .exists .. => false
  | .cast e _ | .hash256 e | .not e | .isNull e _ => e.isLocal
  | .concat es | .coalesce es => Expr.areLocal es
  | .binary l _ r => l.isLocal && r.isLocal
  | _ => true

/-- `Expr.isLocal` of several expressions. -/
def Expr.areLocal : List Expr → Bool
  | [] => true
  | e :: es => e.isLocal && Expr.areLocal es

end

/-- Expressions are local if each of them is. -/
theorem Expr.areLocal_eq_all (es : List Expr) : Expr.areLocal es = es.all Expr.isLocal := by
  induction es with
  | nil => rfl
  | cons e es ih => rw [Expr.areLocal, ih, List.all_cons]

mutual

/-- What reads no table does not count rows either. -/
theorem Expr.isRowwise_of_isLocal : (e : Expr) → e.isLocal = true → e.isRowwise = true
  | .column .., _ | .literal .., _ | .placeholder .., _ | .raw .., _ => rfl
  | .cast e _, h => isRowwise_of_isLocal e h
  | .hash256 e, h => isRowwise_of_isLocal e h
  | .not e, h => isRowwise_of_isLocal e h
  | .isNull e _, h => isRowwise_of_isLocal e h
  | .concat es, h => areRowwise_of_areLocal es h
  | .coalesce es, h => areRowwise_of_areLocal es h
  | .binary l _ r, h => by
    simp only [isLocal, Bool.and_eq_true] at h
    simp only [isRowwise, isRowwise_of_isLocal l h.1, isRowwise_of_isLocal r h.2, Bool.and_self]

private theorem Expr.areRowwise_of_areLocal : (es : List Expr) → areLocal es = true →
    areRowwise es = true
  | [], _ => rfl
  | e :: es, h => by
    simp only [areLocal, Bool.and_eq_true] at h
    simp only [areRowwise, isRowwise_of_isLocal e h.1, areRowwise_of_areLocal es h.2, Bool.and_self]

end

mutual

/-- What the tables hold does not matter to an expression that reads only the rows in view. -/
theorem Expr.eval_congr {w w' : World V} (engine : w'.engine = w.engine)
    (placeholder : w'.placeholder = w.placeholder) (sc : Scope V) :
    (e : Expr) → e.isLocal = true → e.eval w' sc = e.eval w sc
  | .column .., _ => rfl
  | .literal _, _ => by simp only [eval, engine]
  | .placeholder _, _ => by simp only [eval, placeholder]
  | .raw _, _ => by simp only [eval, engine]
  | .cast e _, h => by simp only [eval, engine, eval_congr engine placeholder sc e h]
  | .hash256 e, h => by simp only [eval, engine, eval_congr engine placeholder sc e h]
  | .not e, h => by simp only [eval, engine, eval_congr engine placeholder sc e h]
  | .isNull e _, h => by simp only [eval, engine, eval_congr engine placeholder sc e h]
  | .concat es, h => by simp only [eval, engine, evalAll_congr engine placeholder sc es h]
  | .coalesce es, h => by simp only [eval, evalAll_congr engine placeholder sc es h]
  | .binary l _ r, h => by
    simp only [isLocal, Bool.and_eq_true] at h
    simp only [eval, engine, eval_congr engine placeholder sc l h.1,
      eval_congr engine placeholder sc r h.2]

private theorem Expr.evalAll_congr {w w' : World V} (engine : w'.engine = w.engine)
    (placeholder : w'.placeholder = w.placeholder) (sc : Scope V) :
    (es : List Expr) → areLocal es = true → evalAll w' es sc = evalAll w es sc
  | [], _ => rfl
  | e :: es, h => by
    simp only [areLocal, Bool.and_eq_true] at h
    simp only [evalAll, engine, eval_congr engine placeholder sc e h.1,
      evalAll_congr engine placeholder sc es h.2]

end

/-- A `SELECT` from a single table, whose columns and filter read only the rows in view, has the
same rows wherever that table is the same. -/
theorem Select.rows_congr {w w' : World V} (engine : w'.engine = w.engine)
    (placeholder : w'.placeholder = w.placeholder) {items : List SelectItem} {table : TableRef}
    {filter : Option Expr} (same : w'.tables table.table = w.tables table.table)
    (localItems : ∀ i ∈ items, i.expr.isLocal = true) (localFilter : ∀ e ∈ filter, e.isLocal = true)
    (sc : Scope V) :
    Select.rows w' ⟨false, items, some (.table table), filter, []⟩ sc =
      Select.rows w ⟨false, items, some (.table table), filter, []⟩ sc := by
  have rowwise : Select.isRowwise ⟨false, items, some (.table table), filter, []⟩ = true := by
    simpa [Select.isRowwise] using fun i member => i.expr.isRowwise_of_isLocal (localItems i member)
  have passes (found : Scope V) : Expr.passes w' filter found = Expr.passes w filter found := by
    cases filter with
    | none => rfl
    | some e => simp only [Expr.passes, engine, Expr.eval_congr engine placeholder found e
        (localFilter e rfl)]
  rw [Select.rows_of_isRowwise w' rowwise rfl, Select.rows_of_isRowwise w rowwise rfl]
  simp only [Source.scopes, Source.frames, same]
  rw [List.filter_congr fun found _ => passes found]
  refine List.map_congr_left fun found _ => List.map_congr_left fun i member => ?_
  rw [engine, Expr.eval_congr engine placeholder found i.expr (localItems i member)]

/-! ### Filters

A row passes a filter if the condition is true of it; without a condition every row passes. The
lemmas below read off when a row passes, form by form. -/

namespace Expr

variable (w : World V) (sc : Scope V)

/-- A row passes a condition that is true of it. -/
theorem passes_some {e : Expr} :
    passes w (some e) sc = true ↔ (e.eval w sc).holds w.engine = some true := by
  simp [passes]

/-- A row passes a conjunction if it passes both conditions. -/
theorem passes_and (a b : Expr) :
    passes w (some (a.and b)) sc = (passes w (some a) sc && passes w (some b) sc) := by
  simp [passes, Expr.and, eval, BinaryOp.apply, Truth.and_eq_true]

/-- A filter with a condition more lets those rows through that satisfy both. -/
theorem passes_addFilter (filter : Option Expr) (p : Expr) :
    passes w (some (addFilter filter p)) sc = (passes w filter sc && passes w (some p) sc) := by
  cases filter with
  | none => rfl
  | some e => exact passes_and w sc e p

/-- A conjunction lets those rows through that satisfy every part. -/
theorem passes_andAll (ps : List Expr) :
    passes w (andAll ps) sc = ps.all fun p => passes w (some p) sc := by
  cases ps with
  | nil => simp [andAll, passes]
  | cons p ps =>
    simp only [andAll, List.all_cons]
    induction ps generalizing p with
    | nil => simp
    | cons q qs ih => simp only [List.foldl_cons, List.all_cons, ih, passes_and, Bool.and_assoc]

/-- A row passes an equation if both sides have the same value, and have one. -/
theorem passes_eq {a b : Expr} :
    passes w (some (a.eq b)) sc = true ↔
      ∃ v, (a.eval w sc).value w.engine = some v ∧ (b.eval w sc).value w.engine = some v := by
  simp only [passes_some, Expr.eq, eval, BinaryOp.apply, Datum.holds_truth, Truth.compare_eq_true]
  constructor
  · rintro ⟨x, y, left, right, same⟩
    exact ⟨x, left, by simpa [of_decide_eq_true same] using right⟩
  · rintro ⟨v, left, right⟩
    exact ⟨v, v, left, right, by simp⟩

/-- A row passes the opposite if both sides have a value, and not the same. -/
theorem passes_ne {a b : Expr} :
    passes w (some (a.ne b)) sc = true ↔
      ∃ x y, (a.eval w sc).value w.engine = some x ∧
        (b.eval w sc).value w.engine = some y ∧ x ≠ y := by
  simp [passes_some, Expr.ne, eval, BinaryOp.apply, Truth.compare_eq_true]

/-- A row passes a test for what is missing if the value is. -/
theorem passes_isNull (e : Expr) :
    passes w (some (.isNull e false)) sc = ((e.eval w sc).value w.engine).isNone := by
  rw [Bool.eq_iff_iff, passes_some]
  simp [eval]

/-- A row passes a test for rows if the query has some, or none if that is asked. -/
theorem passes_exists (q : Plan) (negated : Bool) :
    passes w (some (.exists q negated)) sc = ((q.rows w sc).isEmpty == negated) := by
  rw [Bool.eq_iff_iff, passes_some]
  simp [eval]

end Expr

/-- Two columns that are compared in a filter are those of two rows in view. -/
theorem Expr.passes_column_eq (w : World V) {sc : Scope V} {a b : ObjectName} {r s : Row V}
    (left : sc.lookup a = some r) (right : sc.lookup b = some s) (c c' : String) :
    Expr.passes w (some ((Expr.column (some a) c).eq (.column (some b) c'))) sc = true ↔
      ∃ v, r.get c = some v ∧ s.get c' = some v := by
  simp [Expr.passes_eq, Expr.eval, Scope.find, left, right]

/-- A query of a single table, of which only the existence of rows matters, finds none if no row of
the table passes its filter. -/
theorem Plan.rows_probe_isEmpty (w : World V) (sc : Scope V) (table : ObjectName) (name : String)
    (filter : Option Expr) :
    ((Plan.select ⟨false, [⟨.literal (.int 1), none⟩], some (.table ⟨table, some name⟩),
      filter, []⟩).rows w sc).isEmpty =
      ! (w.tables table).any fun r => Expr.passes w filter ((⟨none, name⟩, r) :: sc) := by
  rw [Bool.eq_iff_iff]
  simp [Plan.rows, Select.rows, Select.isRowwise, Expr.isRowwise, Source.scopes, Source.frames,
    List.filter_eq_nil_iff]

end

end Warehouse.Sql
