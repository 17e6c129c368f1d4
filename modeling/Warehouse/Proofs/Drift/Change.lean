/-
Module: Warehouse.Proofs.Drift.Change
Purpose: What the steps of a drift plan do to a database. A step is taken only if its turn has come:
  what it renames or retypes has to be there, and the new name has to be free. Names are found as
  the database finds them, whatever their case, and of two columns of one name the later is meant.
Trusted boundary: human-reviewed spec (what the steps of a plan do to a database)
Main exports: LiveSchema.setTable, changeLast, hasColumn, DriftStep.after?, afterSteps?,
  renames_run, adds_run, retypes_run, afterSteps?_ofTable
-/
import Mathlib.Data.List.Forall2
import Warehouse.Drift.Plan
import Warehouse.Proofs.Lists

namespace Warehouse

open Sql (ColumnSpec DataType Dialect)

/-! ### Tables

What steps do to the tables of a live schema. A table is looked up by its lower-cased name, and a
change of one table leaves all others as they are. -/

namespace LiveSchema

/-- The database with another table of that name. -/
def setTable (live : LiveSchema) (schema table : String) (t : LiveTable) : LiveSchema :=
  { live with tables := live.tables ++ [(tableName schema table, t)] }

/-- The database in which the table `former` goes by another name, which must be free. -/
def renameTable? (live : LiveSchema) (schema former name : String) : Option LiveSchema :=
  if live.hasTable schema former && ! live.hasTable schema name then
    some ((live.setTable schema former ⟨false, []⟩).setTable schema name
      ⟨true, live.columns schema former⟩)
  else none

/-- The database with other columns in a table, which must be there. -/
def changeColumns? (live : LiveSchema) (schema table : String)
    (change : List LiveColumn → Option (List LiveColumn)) : Option LiveSchema :=
  if live.hasTable schema table then
    (change (live.columns schema table)).map fun columns =>
    live.setTable schema table ⟨true, columns⟩
  else none

variable {live : LiveSchema} {schema table schema' table' : String}

/-- A table that is put there is found. -/
theorem table?_setTable_self (t : LiveTable) :
    (live.setTable schema table t).table? schema table = some t := by
  simp [setTable, table?]

/-- A table of another name is what it was. -/
theorem table?_setTable_of_ne (t : LiveTable)
    (other : tableName schema' table' ≠ tableName schema table) :
    (live.setTable schema table t).table? schema' table' = live.table? schema' table' := by
  have differ : (tableName schema' table' == tableName schema table) = false :=
    beq_false_of_ne other
  simp [setTable, table?, List.lookup_cons, differ]

/-- Whether two databases say the same of the table of that name. -/
def AgreeOn (live after : LiveSchema) (schema table : String) : Prop :=
  after.table? schema table = live.table? schema table

/-- Whether a table is there is something that two schemas that agree on it agree on. -/
theorem AgreeOn.hasTable {after : LiveSchema} (agree : live.AgreeOn after schema table) :
    after.hasTable schema table = live.hasTable schema table := by
  rw [LiveSchema.hasTable, LiveSchema.hasTable, agree]

/-- So is which columns it has. -/
theorem AgreeOn.columns {after : LiveSchema} (agree : live.AgreeOn after schema table) :
    after.columns schema table = live.columns schema table := by
  rw [LiveSchema.columns, LiveSchema.columns, agree]

theorem hasTable_of_table? {columns : List LiveColumn}
    (found : live.table? schema table = some ⟨true, columns⟩) :
    live.hasTable schema table = true := by
  rw [LiveSchema.hasTable, found]

private theorem columns_of_table? {columns : List LiveColumn}
    (found : live.table? schema table = some ⟨true, columns⟩) :
    live.columns schema table = columns := by
  rw [LiveSchema.columns, found]
  rfl

end LiveSchema

/-! ### Columns -/

/-- The list with the last element that satisfies `p` changed. -/
def changeLast {α : Type} (p : α → Bool) (f : α → α) : List α → List α
  | [] => []
  | x :: rest =>
    if rest.any p then x :: changeLast p f rest else if p x then f x :: rest else x :: rest

/-- Whether there is a column of that name. -/
def hasColumn (columns : List LiveColumn) (name : String) : Bool :=
  (liveColumn? columns (Text.lower name)).isSome

/-- The columns with the one of that name changed. -/
def changeColumn (name : String) (change : LiveColumn → LiveColumn) (columns : List LiveColumn) :
    List LiveColumn :=
  changeLast (fun c => Text.lower c.name = Text.lower name) change columns

/-- The columns with one of them under a new name. -/
def renameColumn? (former name : String) (columns : List LiveColumn) : Option (List LiveColumn) :=
  if hasColumn columns former && ! hasColumn columns name then
    some (changeColumn former (fun c => { c with name }) columns)
  else none

/-- A column as it stands in the table once it has been added. -/
def addedColumn (dialect : Dialect) (c : ColumnSpec) : LiveColumn :=
  ⟨c.name, dialect.columnType c.type, c.nullable⟩

/-- The columns with one more behind them. -/
def addColumn? (dialect : Dialect) (c : ColumnSpec) (columns : List LiveColumn) :
    Option (List LiveColumn) :=
  if hasColumn columns c.name then none
  else some (columns ++ [addedColumn dialect c])

/-- The columns with one of them of another type. -/
def retypeColumn? (dialect : Dialect) (name : String) (type : DataType)
    (columns : List LiveColumn) : Option (List LiveColumn) :=
  if hasColumn columns name then
    some (changeColumn name (fun c => { c with datatype := dialect.columnType type }) columns)
  else none

/-! ### Steps

A step is possible only where a database would allow it: a name that is taken cannot be given again,
and what is renamed or retyped must be there. -/

/-- What a step makes of the columns of its table. -/
def DriftStep.onColumns? (dialect : Dialect) : DriftStep → List LiveColumn →
    Option (List LiveColumn)
  | .renameColumn _ _ former name => renameColumn? former name
  | .addColumn _ _ column => addColumn? dialect column
  | .alterColumnType _ _ column type => retypeColumn? dialect column type
  | .ensureSchema _ | .renameTable .. => some

/-- The table whose columns a step changes. -/
def DriftStep.table? : DriftStep → Option (String × String)
  | .renameColumn schema table _ _ | .addColumn schema table _
    | .alterColumnType schema table _ _ =>
    some (schema, table)
  | .ensureSchema _ | .renameTable .. => none

/-- The database after a step, if the step can be taken. -/
def DriftStep.after? (dialect : Dialect) (live : LiveSchema) (s : DriftStep) : Option LiveSchema :=
  match s with
  | .ensureSchema schema => some (live.withSchema schema)
  | .renameTable schema former name => live.renameTable? schema former name
  | .renameColumn schema table _ _ | .addColumn schema table _
    | .alterColumnType schema table _ _ =>
    live.changeColumns? schema table (s.onColumns? dialect)

/-- The database after steps that are taken one after another, if each can be taken in its turn. -/
def afterSteps? (dialect : Dialect) (live : LiveSchema) (steps : List DriftStep) :
    Option LiveSchema :=
  steps.foldlM (DriftStep.after? dialect) live

/-! ### Changing one element -/

section

variable {α β : Type} {p : α → Bool} {f : α → α}

/-- The element that is changed is the one that a search from the end finds. -/
theorem forall₂_changeLast (xs : List α) :
    List.Forall₂ (fun x y => y = x ∨ xs.reverse.find? p = some x ∧ y = f x) xs
      (changeLast p f xs) := by
  induction xs with
  | nil => exact .nil
  | cons x rest ih =>
    have search : (x :: rest).reverse.find? p = (rest.reverse.find? p).or ([x].find? p) := by
      rw [List.reverse_cons, List.find?_append]
    have same (ys : List α) (R : α → α → Prop) (refl : ∀ y, R y y) : List.Forall₂ R ys ys :=
      List.forall₂_same.mpr fun y _ => refl y
    rw [changeLast, search]
    by_cases later : rest.any p
    · rw [if_pos later]
      refine .cons (.inl rfl) (ih.imp fun y z kept => kept.imp_right fun changed => ?_)
      exact ⟨by rw [changed.1, Option.some_or], changed.2⟩
    · rw [if_neg later]
      have none_later : rest.reverse.find? p = none := by
        rw [List.find?_eq_none]
        intro y member holds
        exact later (List.any_eq_true.mpr ⟨y, List.mem_reverse.mp member, holds⟩)
      by_cases here : p x
      · rw [if_pos here]
        refine .cons (.inr ⟨?_, rfl⟩) (same rest _ fun y => .inl rfl)
        rw [none_later, Option.none_or, List.find?_cons_of_pos here]
      · rw [if_neg here]
        exact same (x :: rest) _ fun y => .inl rfl

/-- A search for what the change does not touch finds the same. -/
theorem find?_reverse_changeLast {q : α → Bool}
    (apart : ∀ x, p x = true → q x = false ∧ q (f x) = false) (xs : List α) :
    (changeLast p f xs).reverse.find? q = xs.reverse.find? q := by
  induction xs with
  | nil => rfl
  | cons x rest ih =>
    rw [changeLast]
    split
    · rw [List.reverse_cons, List.reverse_cons, List.find?_append, List.find?_append, ih]
    · split
      · next here =>
        rw [List.reverse_cons, List.reverse_cons, List.find?_append, List.find?_append]
        simp [apart x here]
      · rfl

/-- The element that is changed is among the changed ones. -/
private theorem mem_changeLast {xs : List α} {x : α} (found : xs.reverse.find? p = some x) :
    f x ∈ changeLast p f xs := by
  induction xs with
  | nil => cases found
  | cons y rest ih =>
    rw [List.reverse_cons, List.find?_append, Option.or_eq_some_iff] at found
    rw [changeLast]
    rcases found with later | ⟨none_later, here⟩
    · have any : rest.any p = true :=
        List.any_eq_true.mpr
          ⟨x, by simpa using List.mem_of_find?_eq_some later, List.find?_some later⟩
      rw [if_pos any]
      exact List.mem_cons_of_mem _ (ih later)
    · have none_any : ¬ rest.any p = true := by
        rw [List.any_eq_true]
        rintro ⟨z, member, holds⟩
        exact absurd holds (List.find?_eq_none.mp none_later z (List.mem_reverse.mpr member))
      have same : x = y := List.mem_singleton.mp (List.mem_of_find?_eq_some here)
      have holds : p y = true := same ▸ List.find?_some here
      rw [if_neg none_any, if_pos holds, same]
      exact List.mem_cons_self

/-- What a change keeps of each element it keeps of the list. -/
theorem map_changeLast {g : α → β} (keeps : ∀ x, g (f x) = g x) (xs : List α) :
    (changeLast p f xs).map g = xs.map g := by
  induction xs with
  | nil => rfl
  | cons x rest ih =>
    rw [changeLast]
    split
    · rw [List.map_cons, List.map_cons, ih]
    · split
      · rw [List.map_cons, List.map_cons, keeps]
      · rfl

end

/-! ### Finding columns -/

/-- A column is found under its name in small letters. -/
theorem liveColumn?_lower {columns : List LiveColumn} {lower : String} {c : LiveColumn}
    (found : liveColumn? columns lower = some c) : Text.lower c.name = lower := by
  unfold liveColumn? at found
  simpa using List.find?_some found

/-- A table has a column of a name if one of its columns has this name up to case. -/
theorem hasColumn_eq_true_iff {columns : List LiveColumn} {name : String} :
    hasColumn columns name = true ↔ ∃ c ∈ columns, Text.lower c.name = Text.lower name := by
  simp [hasColumn, liveColumn?, List.find?_isSome]

/-- A table has no column of a name exactly if none is found. -/
theorem hasColumn_eq_false_iff {columns : List LiveColumn} {name : String} :
    hasColumn columns name = false ↔ liveColumn? columns (Text.lower name) = none := by
  simp [hasColumn]

private theorem hasColumn_eq_any (columns : List LiveColumn) (name : String) :
    hasColumn columns name = (columns.map LiveColumn.name).any fun n =>
    Text.lower n = Text.lower name := by
  rw [Bool.eq_iff_iff, hasColumn_eq_true_iff, List.any_eq_true]
  simp

/-- A table with more columns has those of before, and the new ones. -/
theorem hasColumn_append (columns more : List LiveColumn) (name : String) :
    hasColumn (columns ++ more) name = (hasColumn columns name || hasColumn more name) := by
  simp only [hasColumn_eq_any, List.map_append, List.any_append]

/-- Which columns there are is a matter of the names. -/
theorem hasColumn_congr {columns columns' : List LiveColumn} {name : String}
    (names : columns'.map LiveColumn.name = columns.map LiveColumn.name) :
    hasColumn columns' name = hasColumn columns name := by
  rw [hasColumn_eq_any, hasColumn_eq_any, names]

/-! ### Renaming -/

/-- Renames of columns, given by former and new names, that can all be done: what is renamed is
there under its former name, the new names are free, and no column is renamed twice or gets the name
of another. -/
structure Renamable (columns : List LiveColumn) (renames : List (String × String)) : Prop where
  there : ∀ r ∈ renames, ∃ c, liveColumn? columns (Text.lower r.1) = some c ∧ c.name = r.1
  free : ∀ r ∈ renames, hasColumn columns r.2 = false
  once : (renames.map fun r => Text.lower r.1).Nodup
  apart : (renames.map fun r => Text.lower r.2).Nodup

/-- A rename touches no name but its two. -/
theorem liveColumn?_changeColumn {columns : List LiveColumn} {former name lower : String}
    (old : lower ≠ Text.lower former) (new : lower ≠ Text.lower name) :
    liveColumn? (changeColumn former (fun c => { c with name }) columns) lower =
      liveColumn? columns lower := by
  refine find?_reverse_changeLast (fun c renamed => ?_) columns
  have same : Text.lower c.name = Text.lower former := by simpa using renamed
  exact ⟨by simpa [same] using old.symm, by simpa using new.symm⟩

/-- A column that is renamed is there under its new name. -/
private theorem hasColumn_changeColumn {columns : List LiveColumn} {former name : String}
    (there : hasColumn columns former = true) :
    hasColumn (changeColumn former (fun c => { c with name }) columns) name = true := by
  obtain ⟨c, found⟩ := Option.isSome_iff_exists.mp there
  have member : { c with name } ∈ changeColumn former (fun c => { c with name }) columns := by
    unfold liveColumn? at found
    exact mem_changeLast found
  rw [hasColumn_eq_true_iff]
  exact ⟨_, member, rfl⟩

/-- The first of a list of renames can be done, and the others still can after it. -/
theorem Renamable.step {columns : List LiveColumn} {former name : String}
    {rest : List (String × String)} (renamable : Renamable columns ((former, name) :: rest)) :
    renameColumn? former name columns =
        some (changeColumn former (fun c => { c with name }) columns) ∧
      Renamable (changeColumn former (fun c => { c with name }) columns) rest := by
  obtain ⟨c, found, _⟩ := renamable.there (former, name) List.mem_cons_self
  have here : hasColumn columns former = true := Option.isSome_iff_exists.mpr ⟨c, found⟩
  have free : hasColumn columns name = false := renamable.free (former, name) List.mem_cons_self
  have once := List.nodup_cons.mp renamable.once
  have apart := List.nodup_cons.mp renamable.apart
  constructor
  · rw [renameColumn?, here, free]
    rfl
  · refine ⟨fun r member => ?_, fun r member => ?_, once.2, apart.2⟩
    · obtain ⟨c', found', name'⟩ := renamable.there r (List.mem_cons_of_mem _ member)
      refine ⟨c', ?_, name'⟩
      rw [liveColumn?_changeColumn, found']
      · intro same
        exact once.1 (List.mem_map.mpr ⟨r, member, same⟩)
      · intro same
        rw [hasColumn_eq_false_iff, ← same, found'] at free
        cases free
    · have still := renamable.free r (List.mem_cons_of_mem _ member)
      rw [hasColumn_eq_false_iff] at still ⊢
      rw [liveColumn?_changeColumn, still]
      · intro same
        rw [same, found] at still
        cases still
      · intro same
        exact apart.1 (List.mem_map.mpr ⟨r, member, same⟩)

/-- What has become of columns that were renamed: each has its old name or its new one, every new
name is there, and so are the names that no rename speaks of. -/
structure RenamesDone (renames : List (String × String)) (before after : List LiveColumn) :
    Prop where
  kept : List.Forall₂ (fun c c' => c'.name = c.name ∨ (c.name, c'.name) ∈ renames) before after
  given : ∀ r ∈ renames, hasColumn after r.2 = true
  others : ∀ name, Text.lower name ∉ renames.map (fun r => Text.lower r.1) →
    Text.lower name ∉ renames.map (fun r => Text.lower r.2) →
    hasColumn after name = hasColumn before name

/-- Renames that can be done together can be done one after another. -/
theorem renames_run {columns : List LiveColumn} {renames : List (String × String)}
    (renamable : Renamable columns renames) :
    ∃ columns', renames.foldlM (fun cs r => renameColumn? r.1 r.2 cs) columns = some columns' ∧
      RenamesDone renames columns columns' := by
  induction renames generalizing columns with
  | nil =>
    refine ⟨columns, rfl, List.forall₂_same.mpr fun c _ => .inl rfl, ?_, fun _ _ _ => rfl⟩
    intro r member
    cases member
  | cons r rest ih =>
    obtain ⟨former, name⟩ := r
    obtain ⟨done, renamable'⟩ := renamable.step
    obtain ⟨columns', run, rest_done⟩ := ih renamable'
    obtain ⟨c, found, spelled⟩ := renamable.there (former, name) List.mem_cons_self
    refine ⟨columns', by rw [List.foldlM_cons, done]; exact run, ?_, ?_, ?_⟩
    · -- No column is renamed twice: a name that is given up was there before, one that is given
      -- was not.
      refine (forall₂_comp (forall₂_changeLast columns) rest_done.kept).imp
        fun c₁ c₃ ⟨c₂, first, second⟩ => ?_
      rcases first with rfl | ⟨found', rfl⟩
      · exact second.imp_right (List.mem_cons_of_mem _)
      · have same : c = c₁ := Option.some.inj (found.symm.trans found')
        subst same
        rcases second with second | second
        · refine .inr ?_
          rw [second, spelled]
          exact List.mem_cons_self
        · obtain ⟨_, there, _⟩ := renamable.there _ (List.mem_cons_of_mem _ second)
          rw [hasColumn_eq_false_iff.mp (renamable.free (former, name) List.mem_cons_self)] at there
          cases there
    · intro r member
      rcases List.mem_cons.mp member with rfl | later
      · rw [rest_done.others]
        · exact hasColumn_changeColumn (Option.isSome_iff_exists.mpr ⟨c, found⟩)
        · intro given
          obtain ⟨r', member', same⟩ := List.mem_map.mp given
          obtain ⟨_, there, _⟩ := renamable.there r' (List.mem_cons_of_mem _ member')
          rw [same, hasColumn_eq_false_iff.mp (renamable.free (former, name) List.mem_cons_self)]
            at there
          cases there
        · exact (List.nodup_cons.mp renamable.apart).1
      · exact rest_done.given r later
    · intro other old fresh
      rw [List.map_cons, List.mem_cons, not_or] at old fresh
      rw [rest_done.others other old.2 fresh.2, hasColumn, hasColumn,
        liveColumn?_changeColumn old.1 fresh.1]

/-! ### Adding and retyping -/

/-- Columns under new names can be added one after another. -/
theorem adds_run (dialect : Dialect) {columns : List LiveColumn} {added : List ColumnSpec}
    (free : ∀ c ∈ added, hasColumn columns c.name = false)
    (apart : (added.map fun c => Text.lower c.name).Nodup) :
    added.foldlM (fun cs c => addColumn? dialect c cs) columns =
      some (columns ++ added.map (addedColumn dialect)) := by
  induction added generalizing columns with
  | nil => simp
  | cons c rest ih =>
    obtain ⟨fresh, apart⟩ := List.nodup_cons.mp apart
    have first : addColumn? dialect c columns = some (columns ++ [addedColumn dialect c]) := by
      rw [addColumn?, free c List.mem_cons_self]
      rfl
    have still : ∀ c' ∈ rest, hasColumn (columns ++ [addedColumn dialect c]) c'.name = false := by
      intro c' later
      have other : Text.lower c.name ≠ Text.lower c'.name := fun same =>
        fresh (List.mem_map.mpr ⟨c', later, same.symm⟩)
      rw [hasColumn_append, free c' (List.mem_cons_of_mem _ later), hasColumn_eq_any]
      simpa [addedColumn] using other
    rw [List.foldlM_cons, first]
    exact (ih still apart).trans (by rw [List.map_cons, List.append_assoc, List.singleton_append])

/-- Columns that are there can be retyped one after another, and keep their names. -/
theorem retypes_run (dialect : Dialect) {columns : List LiveColumn}
    {retyped : List (String × DataType)} (there : ∀ r ∈ retyped, hasColumn columns r.1 = true) :
    ∃ columns', retyped.foldlM (fun cs r => retypeColumn? dialect r.1 r.2 cs) columns =
      some columns' ∧ columns'.map LiveColumn.name = columns.map LiveColumn.name := by
  induction retyped generalizing columns with
  | nil => exact ⟨columns, rfl, rfl⟩
  | cons r rest ih =>
    have names :
      (changeColumn r.1 (fun c => { c with datatype := dialect.columnType r.2 }) columns).map
        LiveColumn.name = columns.map LiveColumn.name := by
      refine map_changeLast (fun c => ?_) columns
      rfl
    have first : retypeColumn? dialect r.1 r.2 columns =
        some (changeColumn r.1 (fun c => { c with datatype := dialect.columnType r.2 })
          columns) := by
      rw [retypeColumn?, there r List.mem_cons_self]
      rfl
    obtain ⟨columns', run, same⟩ := ih fun r' later =>
      (hasColumn_congr names).trans (there r' (List.mem_cons_of_mem _ later))
    refine ⟨columns', ?_, same.trans names⟩
    rw [List.foldlM_cons, first]
    exact run

/-! ### One table after another -/

/-- The database `after` differs from `live` in the columns of one table only. -/
structure LiveSchema.TableChanged (live after : LiveSchema) (schema table : String)
    (columns : List LiveColumn) : Prop where
  schemas : after.schemas = live.schemas
  there : after.hasTable schema table = true
  columns : after.columns schema table = columns
  others : ∀ schema' table', LiveSchema.tableName schema' table' ≠
    LiveSchema.tableName schema table → live.AgreeOn after schema' table'

/-- Steps about one table can be taken if its columns can be changed so. -/
theorem afterSteps?_ofTable (dialect : Dialect) {live : LiveSchema} {schema table : String}
    {steps : List DriftStep} (own : ∀ s ∈ steps, s.table? = some (schema, table))
    (there : live.hasTable schema table = true) {columns : List LiveColumn}
    (run : steps.foldlM (fun cs s => s.onColumns? dialect cs) (live.columns schema table) =
      some columns) :
    ∃ after, afterSteps? dialect live steps = some after ∧
      live.TableChanged after schema table columns := by
  induction steps generalizing live with
  | nil =>
    have same : live.columns schema table = columns := Option.some.inj run
    exact ⟨live, rfl, rfl, there, same, fun _ _ _ => rfl⟩
  | cons s rest ih =>
    rw [List.foldlM_cons] at run
    obtain ⟨columns₁, first, run⟩ := Option.bind_eq_some_iff.mp run
    have taken : s.after? dialect live = some (live.setTable schema table ⟨true, columns₁⟩) := by
      have about := own s List.mem_cons_self
      have changed : live.changeColumns? schema table (s.onColumns? dialect) =
          some (live.setTable schema table ⟨true, columns₁⟩) := by
        rw [LiveSchema.changeColumns?, there, first]
        rfl
      cases s <;> cases about
      all_goals exact changed
    have found : (live.setTable schema table ⟨true, columns₁⟩).table? schema table =
        some ⟨true, columns₁⟩ := LiveSchema.table?_setTable_self _
    obtain ⟨after, done, changed⟩ := ih (fun s' later => own s' (List.mem_cons_of_mem _ later))
      (LiveSchema.hasTable_of_table? found) (by rw [LiveSchema.columns_of_table? found, run])
    refine ⟨after, ?_, changed.schemas, changed.there, changed.columns,
      fun schema' table' other => ?_⟩
    · rw [afterSteps?, List.foldlM_cons, taken]
      exact done
    · have same := changed.others schema' table' other
      rw [LiveSchema.AgreeOn] at same ⊢
      rw [same, LiveSchema.table?_setTable_of_ne _ other]

/-- A table that is there can be given a free name. -/
theorem renameTable?_eq_some {live : LiveSchema} {schema former name : String}
    (there : live.hasTable schema former = true) (free : live.hasTable schema name = false) :
    ∃ after, live.renameTable? schema former name = some after ∧
      after.schemas = live.schemas ∧ after.hasTable schema name = true ∧
      after.columns schema name = live.columns schema former ∧
      ∀ schema' table', LiveSchema.tableName schema' table' ≠ LiveSchema.tableName schema former →
        LiveSchema.tableName schema' table' ≠ LiveSchema.tableName schema name →
        live.AgreeOn after schema' table' := by
  have renamed : live.renameTable? schema former name =
      some ((live.setTable schema former ⟨false, []⟩).setTable schema name
        ⟨true, live.columns schema former⟩) := by
    rw [LiveSchema.renameTable?, there, free]
    rfl
  refine ⟨_, renamed, rfl, ?_, ?_, ?_⟩
  · exact LiveSchema.hasTable_of_table? (LiveSchema.table?_setTable_self _)
  · exact LiveSchema.columns_of_table? (LiveSchema.table?_setTable_self _)
  · intro schema' table' old new
    rw [LiveSchema.AgreeOn, LiveSchema.table?_setTable_of_ne _ new,
      LiveSchema.table?_setTable_of_ne _ old]

end Warehouse
