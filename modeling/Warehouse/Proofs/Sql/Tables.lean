/-
Module: Warehouse.Proofs.Sql.Tables
Purpose: The tables that a query names after FROM, at any depth: in what it selects from, in its
  conditions and in the columns of its result. A statement reads these and its own rows. The rows of
  a query depend on no other table.
Trusted boundary: none
Main exports: DatasetKey.objectName, Plan.tables, Statement.tables, Select.mem_tables,
  Expr.tables_eq_nil_of_isLocal, World.AgreeOn, Plan.rows_of_agreeOn
-/
import Warehouse.Catalog.Key
import Warehouse.Proofs.Sql.Meaning
import Warehouse.Sql.Statement

namespace Warehouse

/-- The table of a dataset that goes by that key. -/
def DatasetKey.objectName (key : DatasetKey) : Sql.ObjectName := ⟨some key.schema, key.name⟩

namespace Sql

mutual

/-- The tables that an expression reads, which only a query in it does. -/
def Expr.tables : Expr → List ObjectName
  | .cast e _ | .hash256 e | .not e | .isNull e _ => e.tables
  | .concat es | .coalesce es | .call _ es => Expr.tablesOfAll es
  | .rowNumber partition order => Expr.tablesOfAll partition ++ SortKey.tablesOfAll order
  | .binary l _ r => l.tables ++ r.tables
  | .exists q _ => q.tables
  | .column .. | .literal _ | .star _ | .placeholder _ | .raw _ => []

def Expr.tablesOfAll : List Expr → List ObjectName
  | [] => []
  | e :: es => e.tables ++ Expr.tablesOfAll es

def SortKey.tablesOfAll : List SortKey → List ObjectName
  | [] => []
  | ⟨e, _⟩ :: ks => e.tables ++ SortKey.tablesOfAll ks

def SelectItem.tablesOfAll : List SelectItem → List ObjectName
  | [] => []
  | ⟨e, _⟩ :: is => e.tables ++ SelectItem.tablesOfAll is

def Source.tables? : Option Source → List ObjectName
  | none => []
  | some (.table t) => [t.table]
  | some (.subquery q _) => q.tables

def Expr.tables? : Option Expr → List ObjectName
  | none => []
  | some e => e.tables

/-- The tables that a `SELECT` reads. -/
def Select.tables : Select → List ObjectName
  | ⟨_, items, source, filter, groupBy⟩ =>
    SelectItem.tablesOfAll items ++ Source.tables? source ++ Expr.tables? filter ++
      Expr.tablesOfAll groupBy

def Select.tablesOfAll : List Select → List ObjectName
  | [] => []
  | s :: ss => s.tables ++ Select.tablesOfAll ss

/-- The tables that a query reads. -/
def Plan.tables : Plan → List ObjectName
  | .select s => s.tables
  | .union ss _ => Select.tablesOfAll ss

end

/-- The tables that a statement reads. One that changes rows reads those of its own table. -/
def Statement.tables : Statement → List ObjectName
  | .definition (.createView _ q) => q.tables
  | .definition _ => []
  | .insert s => s.source.tables
  | .update s =>
    s.target :: (Expr.tablesOfAll (s.assignments.map Prod.snd) ++ Expr.tables? s.filter)
  | .delete s => s.target :: Expr.tables? s.filter
  | .merge s => s.target :: s.source.tables

/-! ### Membership

The tables of a list are those of its members, and the tables of a query are those of its parts. -/

section

variable {t : ObjectName}

theorem Expr.mem_tablesOfAll {es : List Expr} : t ∈ Expr.tablesOfAll es ↔
    ∃ e ∈ es, t ∈ e.tables := by
  induction es with
  | nil => simp [Expr.tablesOfAll]
  | cons e es ih => rw [Expr.tablesOfAll, List.mem_append, ih, List.exists_mem_cons_iff]

theorem SortKey.mem_tablesOfAll {ks : List SortKey} :
    t ∈ SortKey.tablesOfAll ks ↔ ∃ k ∈ ks, t ∈ k.expr.tables := by
  induction ks with
  | nil => simp [SortKey.tablesOfAll]
  | cons k ks ih =>
    obtain ⟨e, descending⟩ := k
    rw [SortKey.tablesOfAll, List.mem_append, ih, List.exists_mem_cons_iff]

theorem SelectItem.mem_tablesOfAll {is : List SelectItem} :
    t ∈ SelectItem.tablesOfAll is ↔ ∃ i ∈ is, t ∈ i.expr.tables := by
  induction is with
  | nil => simp [SelectItem.tablesOfAll]
  | cons i is ih =>
    obtain ⟨e, alias?⟩ := i
    rw [SelectItem.tablesOfAll, List.mem_append, ih, List.exists_mem_cons_iff]

theorem Select.mem_tablesOfAll {ss : List Select} : t ∈ Select.tablesOfAll ss ↔
    ∃ s ∈ ss, t ∈ s.tables := by
  induction ss with
  | nil => simp [Select.tablesOfAll]
  | cons s ss ih => rw [Select.tablesOfAll, List.mem_append, ih, List.exists_mem_cons_iff]

theorem Expr.mem_tables? {e? : Option Expr} : t ∈ Expr.tables? e? ↔ ∃ e ∈ e?, t ∈ e.tables := by
  cases e? with
  | none => simp [Expr.tables?]
  | some e => simp [Expr.tables?]

/-- Of a `SELECT` whose columns and groups read nothing, what it reads from and its condition
remain. -/
theorem Select.mem_tables {s : Select} (items : ∀ i ∈ s.items, i.expr.tables = [])
    (groups : ∀ e ∈ s.groupBy, e.tables = []) (member : t ∈ s.tables) :
    t ∈ Source.tables? s.source ∨ t ∈ Expr.tables? s.filter := by
  obtain ⟨distinct, is, source, filter, groupBy⟩ := s
  rw [Select.tables, List.mem_append, List.mem_append, List.mem_append, SelectItem.mem_tablesOfAll,
    Expr.mem_tablesOfAll] at member
  rcases member with ((⟨i, item, read⟩ | source) | filter) | ⟨e, group, read⟩
  · rw [items i item] at read
    cases read
  · exact .inl source
  · exact .inr filter
  · rw [groups e group] at read
    cases read

/-- A further condition adds its own tables and no others. -/
theorem Expr.mem_tables_addFilter {e? : Option Expr} {p : Expr}
    (member : t ∈ (Expr.addFilter e? p).tables) : t ∈ Expr.tables? e? ∨ t ∈ p.tables := by
  cases e? with
  | none => exact .inr member
  | some e => exact List.mem_append.mp member

/-- Each table of a conjunction is one of a part. -/
theorem Expr.mem_tables_andAll {ps : List Expr} (member : t ∈ Expr.tables? (Expr.andAll ps)) :
    ∃ p ∈ ps, t ∈ p.tables := by
  have general (p : Expr) (ps : List Expr) (member : t ∈ (ps.foldl Expr.and p).tables) :
      ∃ q ∈ p :: ps, t ∈ q.tables := by
    induction ps generalizing p with
    | nil => exact ⟨p, List.mem_cons_self, member⟩
    | cons q rest ih =>
      obtain ⟨r, among, read⟩ := ih (p.and q) member
      rcases List.mem_cons.mp among with rfl | later
      · rcases List.mem_append.mp read with left | right
        · exact ⟨p, List.mem_cons_self, left⟩
        · exact ⟨q, List.mem_cons_of_mem p List.mem_cons_self, right⟩
      · exact ⟨r, List.mem_cons_of_mem p (List.mem_cons_of_mem q later), read⟩
  cases ps with
  | nil => cases member
  | cons p rest => exact general p rest member

end

/-! ### Conditions

Statements take conditions one by one. What they read after it is what they read before, and what
the condition reads. -/

section

variable {t : ObjectName}

/-- One more condition adds the tables that it reads. -/
theorem Select.mem_tables_andWhere {s : Select} {p : Expr} (read : t ∈ (s.andWhere p).tables) :
    t ∈ s.tables ∨ t ∈ p.tables := by
  obtain ⟨distinct, items, source, filter, groupBy⟩ := s
  simp only [Select.andWhere, Select.tables, List.mem_append] at read ⊢
  rcases read with ((item | source) | condition) | group
  · exact .inl (.inl (.inl (.inl item)))
  · exact .inl (.inl (.inl (.inr source)))
  · exact (Expr.mem_tables_addFilter condition).imp_left fun old => .inl (.inr old)
  · exact .inl (.inr group)

theorem Update.mem_tables_andWhere {s : Update} {p : Expr}
    (read : t ∈ (Statement.update (s.andWhere p)).tables) :
    t ∈ (Statement.update s).tables ∨ t ∈ p.tables := by
  simp only [Update.andWhere, Statement.tables, List.mem_cons, List.mem_append] at read ⊢
  rcases read with own | value | condition
  · exact .inl (.inl own)
  · exact .inl (.inr (.inl value))
  · exact (Expr.mem_tables_addFilter condition).imp_left fun old => .inr (.inr old)

theorem Delete.mem_tables_andWhere {s : Delete} {p : Expr}
    (read : t ∈ (Statement.delete (s.andWhere p)).tables) :
    t ∈ (Statement.delete s).tables ∨ t ∈ p.tables := by
  simp only [Delete.andWhere, Statement.tables, List.mem_cons] at read ⊢
  rcases read with own | condition
  · exact .inl (.inl own)
  · exact (Expr.mem_tables_addFilter condition).imp_left .inr

/-- A query that only asks whether a table has a row of some kind. -/
theorem Select.mem_tables_probe {table : TableRef} {filter : Option Expr}
    (read : t ∈ (⟨false, [⟨.literal (.int 1), none⟩], some (.table table), filter, []⟩ :
      Select).tables) :
    t = table.table ∨ t ∈ Expr.tables? filter := by
  have items : ∀ i ∈ [(⟨.literal (.int 1), none⟩ : SelectItem)], i.expr.tables = [] := by
    intro i item
    rw [List.mem_singleton.mp item]
    rfl
  exact (Select.mem_tables items (fun e group => by cases group) read).imp_left
    List.mem_singleton.mp

/-- A conjunction of conditions that read no table reads none. -/
theorem Expr.tables_andAll {ps : List Expr} (silent : ∀ p ∈ ps, p.tables = []) :
    Expr.tables? (Expr.andAll ps) = [] := by
  refine List.eq_nil_iff_forall_not_mem.mpr fun t read => ?_
  obtain ⟨p, member, read⟩ := Expr.mem_tables_andAll read
  rw [silent p member] at read
  cases read

end

/-! ### Expressions that read no table

An expression without a query inside reads only the row in front of it. -/

mutual

/-- What is computed from the rows in view reads no table. -/
theorem Expr.tables_eq_nil_of_isLocal : (e : Expr) → e.isLocal = true → e.tables = []
  | .column .., _ | .literal .., _ | .placeholder .., _ | .raw .., _ => rfl
  | .cast e _, h => tables_eq_nil_of_isLocal e h
  | .hash256 e, h => tables_eq_nil_of_isLocal e h
  | .not e, h => tables_eq_nil_of_isLocal e h
  | .isNull e _, h => tables_eq_nil_of_isLocal e h
  | .concat es, h => tablesOfAll_eq_nil_of_areLocal es h
  | .coalesce es, h => tablesOfAll_eq_nil_of_areLocal es h
  | .binary l _ r, h => by
    simp only [isLocal, Bool.and_eq_true] at h
    rw [tables, tables_eq_nil_of_isLocal l h.1, tables_eq_nil_of_isLocal r h.2, List.append_nil]

private theorem Expr.tablesOfAll_eq_nil_of_areLocal : (es : List Expr) → areLocal es = true →
    tablesOfAll es = []
  | [], _ => rfl
  | e :: es, h => by
    simp only [areLocal, Bool.and_eq_true] at h
    rw [tablesOfAll, tables_eq_nil_of_isLocal e h.1, tablesOfAll_eq_nil_of_areLocal es h.2,
      List.append_nil]

end

/-! ### Nothing else is read

Two worlds that hold the same in the tables of a query give the same rows for it. The induction goes
over the query, with the names of all its tables as the hypothesis. -/

section

variable {V : Type}

/-- Whether two worlds have the same rows in those tables, and agree in all that is no table. -/
structure World.AgreeOn (w w' : World V) (names : List ObjectName) : Prop where
  engine : w'.engine = w.engine
  placeholder : w'.placeholder = w.placeholder
  tables : ∀ t ∈ names, w'.tables t = w.tables t

theorem World.AgreeOn.left {w w' : World V} {names more : List ObjectName}
    (agree : w.AgreeOn w' (names ++ more)) : w.AgreeOn w' names :=
  ⟨agree.engine, agree.placeholder, fun t member => agree.tables t (List.mem_append_left _ member)⟩

theorem World.AgreeOn.right {w w' : World V} {names more : List ObjectName}
    (agree : w.AgreeOn w' (names ++ more)) : w.AgreeOn w' more :=
  ⟨agree.engine, agree.placeholder, fun t member => agree.tables t (List.mem_append_right _ member)⟩

variable [LinearOrder V] {w w' : World V}

mutual

/-- The value of an expression depends on the tables that it reads and on no others. -/
theorem Expr.eval_of_agreeOn : (e : Expr) → w.AgreeOn w' e.tables → ∀ sc, e.eval w' sc = e.eval w sc
  | .column .., _, _ => rfl
  | .literal _, agree, _ => by rw [Expr.eval, Expr.eval, agree.engine]
  | .placeholder _, agree, _ => by rw [Expr.eval, Expr.eval, agree.placeholder]
  | .raw _, agree, _ => by rw [Expr.eval, Expr.eval, agree.engine]
  | .star _, agree, _ => by rw [Expr.eval, Expr.eval, agree.engine]
  | .rowNumber .., agree, _ => by rw [Expr.eval, Expr.eval, agree.engine]
  | .cast e _, agree, sc => by rw [Expr.eval, Expr.eval, Expr.eval_of_agreeOn e agree, agree.engine]
  | .hash256 e, agree, sc =>
    by rw [Expr.eval, Expr.eval, Expr.eval_of_agreeOn e agree, agree.engine]
  | .not e, agree, sc => by rw [Expr.eval, Expr.eval, Expr.eval_of_agreeOn e agree, agree.engine]
  | .isNull e _, agree, sc =>
    by rw [Expr.eval, Expr.eval, Expr.eval_of_agreeOn e agree, agree.engine]
  | .concat es, agree, sc =>
    by rw [Expr.eval, Expr.eval, Expr.evalAll_of_agreeOn es agree, agree.engine]
  | .coalesce es, agree, sc => by rw [Expr.eval, Expr.eval, Expr.evalAll_of_agreeOn es agree]
  | .call _ es, agree, sc =>
    by rw [Expr.eval, Expr.eval, Expr.evalAll_of_agreeOn es agree, agree.engine]
  | .binary l _ r, agree, sc => by
    rw [Expr.eval, Expr.eval, Expr.eval_of_agreeOn l agree.left, Expr.eval_of_agreeOn r agree.right,
      agree.engine]
  | .exists q _, agree, sc => by rw [Expr.eval, Expr.eval, Plan.rows_of_agreeOn q agree]

private theorem Expr.evalAll_of_agreeOn :
    (es : List Expr) → w.AgreeOn w' (Expr.tablesOfAll es) →
      ∀ sc, Expr.evalAll w' es sc = Expr.evalAll w es sc
  | [], _, _ => rfl
  | e :: es, agree, sc => by
    rw [Expr.evalAll, Expr.evalAll, Expr.eval_of_agreeOn e agree.left,
      Expr.evalAll_of_agreeOn es agree.right, agree.engine]

/-- A condition lets the same rows pass. -/
theorem Expr.passes_of_agreeOn :
    (e? : Option Expr) → w.AgreeOn w' (Expr.tables? e?) →
      ∀ sc, Expr.passes w' e? sc = Expr.passes w e? sc
  | none, _, _ => rfl
  | some e, agree, sc =>
    by rw [Expr.passes, Expr.passes, Expr.eval_of_agreeOn e agree, agree.engine]

private theorem SelectItem.values_of_agreeOn :
    (is : List SelectItem) → w.AgreeOn w' (SelectItem.tablesOfAll is) →
      ∀ sc, SelectItem.values w' is sc = SelectItem.values w is sc
  | [], _, _ => rfl
  | ⟨e, _⟩ :: is, agree, sc => by
    rw [SelectItem.values, SelectItem.values, SelectItem.value, SelectItem.value,
      Expr.eval_of_agreeOn e agree.left, SelectItem.values_of_agreeOn is agree.right, agree.engine]

/-- The same rows are there to select from. -/
theorem Source.scopes_of_agreeOn :
    (s? : Option Source) → w.AgreeOn w' (Source.tables? s?) →
      ∀ sc, Source.scopes w' s? sc = Source.scopes w s? sc
  | none, _, _ => rfl
  | some (.table t), agree, sc => by
    rw [Source.scopes, Source.scopes, Source.frames, Source.frames,
      agree.tables t.table (List.mem_singleton_self _)]
  | some (.subquery q _), agree, sc => by
    rw [Source.scopes, Source.scopes, Source.frames, Source.frames, Plan.rows_of_agreeOn q agree]

/-- The same rows are selected. -/
theorem Select.rows_of_agreeOn : (s : Select) → w.AgreeOn w' s.tables →
    ∀ sc, s.rows w' sc = s.rows w sc
  | ⟨distinct, items, source, filter, groupBy⟩, agree, sc => by
    have sources := Source.scopes_of_agreeOn source agree.left.left.right sc
    have passes : Expr.passes w' filter = Expr.passes w filter :=
      funext fun sc => Expr.passes_of_agreeOn filter agree.left.right sc
    have values : SelectItem.values w' items = SelectItem.values w items :=
      funext fun sc => SelectItem.values_of_agreeOn items agree.left.left.left sc
    rw [Select.rows, Select.rows, sources, passes, values, agree.engine]

private theorem Select.rowsOfAll_of_agreeOn :
    (ss : List Select) → w.AgreeOn w' (Select.tablesOfAll ss) →
      ∀ sc, Select.rowsOfAll w' ss sc = Select.rowsOfAll w ss sc
  | [], _, _ => rfl
  | s :: ss, agree, sc => by
    rw [Select.rowsOfAll, Select.rowsOfAll, Select.rows_of_agreeOn s agree.left,
      Select.rowsOfAll_of_agreeOn ss agree.right]

/-- The rows of a query depend on the tables that it reads and on no others. -/
theorem Plan.rows_of_agreeOn : (p : Plan) → w.AgreeOn w' p.tables → ∀ sc, p.rows w' sc = p.rows w sc
  | .select s, agree, sc => by rw [Plan.rows, Plan.rows, Select.rows_of_agreeOn s agree]
  | .union ss .all, agree, sc => by rw [Plan.rows, Plan.rows, Select.rowsOfAll_of_agreeOn ss agree]
  | .union ss .distinct, agree, sc =>
    by rw [Plan.rows, Plan.rows, Select.rowsOfAll_of_agreeOn ss agree]

end

end

end Sql

end Warehouse
