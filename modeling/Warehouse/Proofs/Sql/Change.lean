/-
Module: Warehouse.Proofs.Sql.Change
Purpose: What statements do to the tables of a world. An update from a joined source may take any of
  the matching source rows, and a database refuses a statement in which two tables go by one name;
  so both are relations between the world before and the world after. A native merge is also refused
  where a row of the target matches two source rows.
Trusted boundary: human-reviewed spec (what statements do to tables)
Main exports: Row.agree, Keyed, Insert.run, Update.run, Delete.run, Rewrites, JoinedUpdate.Runs,
  Merge.NativeRuns, Merge.FallbackRuns, Statement.Runs, RunsAll
-/
import Mathlib.Data.List.Forall2
import Mathlib.Data.List.Pairwise
import Warehouse.Proofs.Sql.Meaning

namespace Warehouse.Sql

variable {V : Type} [LinearOrder V]

/-! ### Keys

Rows are matched by the values in their key columns. A value that is not there matches nothing, not
even another value that is not there, as in a database. -/

namespace Row

/-- Whether two rows hold the same values in those columns; `NULL` is no value. -/
def agree (keys : List String) (r s : Row V) : Bool :=
  keys.all fun k => (r.get k).isSome && decide (r.get k = s.get k)

/-- Rows agree on keys if both have all of them, and the same ones. -/
theorem agree_iff {keys : List String} {r s : Row V} :
    r.agree keys s = true ↔ ∀ k ∈ keys, ∃ v, r.get k = some v ∧ s.get k = some v := by
  simp only [agree, List.all_eq_true, Bool.and_eq_true, decide_eq_true_eq, Option.isSome_iff_exists]
  constructor
  · intro h k member
    obtain ⟨⟨v, held⟩, same⟩ := h k member
    exact ⟨v, held, same ▸ held⟩
  · intro h k member
    obtain ⟨v, left, right⟩ := h k member
    exact ⟨⟨v, left⟩, left.trans right.symm⟩

/-- Rows that hold the same values in the keys agree with the same rows. -/
theorem agree_congr {keys : List String} {r r' s s' : Row V} (left : ∀ k ∈ keys, r.get k = r'.get k)
    (right : ∀ k ∈ keys, s.get k = s'.get k) : r.agree keys s = r'.agree keys s' := by
  rw [Bool.eq_iff_iff, agree_iff, agree_iff]
  constructor <;> intro h k member <;> obtain ⟨v, hr, hs⟩ := h k member
  · exact ⟨v, left k member ▸ hr, right k member ▸ hs⟩
  · exact ⟨v, left k member ▸ hr, right k member ▸ hs⟩

/-- Agreement goes both ways. -/
theorem agree_comm (keys : List String) (r s : Row V) : r.agree keys s = s.agree keys r := by
  rw [Bool.eq_iff_iff, agree_iff, agree_iff]
  constructor <;> intro h k member <;> obtain ⟨v, hr, hs⟩ := h k member <;> exact ⟨v, hs, hr⟩

/-- Rows that agree with the same row agree with each other. -/
theorem agree_trans {keys : List String} {r s t : Row V} (rs : r.agree keys s = true)
    (st : s.agree keys t = true) : r.agree keys t = true := by
  rw [agree_iff] at *
  intro k member
  obtain ⟨v, hr, hs⟩ := rs k member
  obtain ⟨v', hs', ht⟩ := st k member
  exact ⟨v, hr, ht.trans (hs'.symm.trans hs)⟩

/-- A row agrees with itself if none of its keys is `NULL`. -/
theorem agree_self {keys : List String} {r : Row V} (keyed : ∀ k ∈ keys, r.get k ≠ none) :
    r.agree keys r = true := by
  rw [agree_iff]
  intro k member
  obtain ⟨v, held⟩ := Option.ne_none_iff_exists'.mp (keyed k member)
  exact ⟨v, held, held⟩

/-- Rows that agree have the same values in the key columns. -/
theorem get_eq_of_agree {keys : List String} {r s : Row V} (h : r.agree keys s = true) {k : String}
    (member : k ∈ keys) : r.get k = s.get k := by
  obtain ⟨v, hr, hs⟩ := agree_iff.mp h k member
  rw [hr, hs]

end Row

/-- No key of a row is missing, and no two rows agree on the keys. -/
structure Keyed (keys : List String) (rows : Table V) : Prop where
  there : ∀ r ∈ rows, ∀ k ∈ keys, r.get k ≠ none
  unique : rows.Pairwise fun r r' => r.agree keys r' = false

namespace Keyed

variable {keys : List String} {rows : Table V}

/-- Of the rows at most one agrees with a given row. -/
theorem single (keyed : Keyed keys rows) (r : Row V) :
    rows.Pairwise fun s s' => ¬ (s.agree keys r = true ∧ s'.agree keys r = true) := by
  refine keyed.unique.imp fun {s s'} differ both => ?_
  rw [Row.agree_trans both.1 (by rw [Row.agree_comm]; exact both.2)] at differ
  cases differ

/-- A part of a table with distinct keys has distinct keys. -/
theorem filter (keyed : Keyed keys rows) (p : Row V → Bool) : Keyed keys (rows.filter p) where
  there r member := keyed.there r (List.mem_filter.mp member).1
  unique := keyed.unique.filter p

/-- What has rows that agree on the keys is one thing. -/
theorem eq_of_map {α : Type} {xs : List α} {row : α → Row V} (keyed : Keyed keys (xs.map row))
    {x y : α} (hx : x ∈ xs) (hy : y ∈ xs) (agrees : (row x).agree keys (row y) = true) : x = y := by
  by_contra ne
  have symmetric : Std.Symm fun a b : α => (row a).agree keys (row b) = false :=
    ⟨fun _ _ differ => by rwa [Row.agree_comm]⟩
  rw [(List.pairwise_map.mp keyed.unique).forall hx hy ne] at agrees
  cases agrees

/-- Rows that agree on the keys are one row. -/
theorem eq (keyed : Keyed keys rows) {r s : Row V} (hr : r ∈ rows) (hs : s ∈ rows)
    (agrees : r.agree keys s = true) : r = s :=
  have mapped : Keyed keys (rows.map id) := by rwa [List.map_id]
  mapped.eq_of_map hr hs agrees

end Keyed

/-- The condition that two rows in view agree on the keys holds if they do. -/
theorem Expr.passes_keys (w : World V) {sc : Scope V} {a b : ObjectName} {r s : Row V}
    (left : sc.lookup a = some r) (right : sc.lookup b = some s) (keys : List String) :
    Expr.passes w
      (Expr.andAll (keys.map fun k => (Expr.column (some a) k).eq (.column (some b) k))) sc =
      r.agree keys s := by
  rw [Bool.eq_iff_iff, Expr.passes_andAll, Row.agree_iff]
  simp [Expr.passes_column_eq w left right]

/-! ### Changes of one table -/

/-- The values that are assigned, given the rows in view. -/
def assigned (w : World V) (sets : List (String × Expr)) (sc : Scope V) :
    List (String × Option V) :=
  sets.map fun (column, e) => (column, (e.eval w sc).value w.engine)

namespace Insert

/-- The rows that are added. -/
def added (w : World V) (s : Insert) : Table V :=
  (s.source.rows w []).map fun vs => Row.ofPairs (s.columns.zip vs)

/-- The world with the added rows. -/
def run (w : World V) (s : Insert) : World V := w.set s.target (w.tables s.target ++ s.added w)

end Insert

namespace Update

/-- What becomes of a row. -/
def rewrite (w : World V) (s : Update) (r : Row V) : Row V :=
  if Expr.passes w s.filter [(s.target, r)] then
    r.assign (assigned w s.assignments [(s.target, r)])
  else r

/-- The world with the rewritten rows. -/
def run (w : World V) (s : Update) : World V :=
  w.set s.target ((w.tables s.target).map (s.rewrite w))

end Update

/-- The world without the rows that are removed. -/
def Delete.run (w : World V) (s : Delete) : World V :=
  w.set s.target ((w.tables s.target).filter fun r => ! Expr.passes w s.filter [(s.target, r)])

/-! ### Changes from a joined source -/

/-- The rows of a merged query. -/
def sourceRows (w : World V) (source : Plan) : Table V :=
  ((Source.subquery source sourceAlias).frames w []).map Prod.snd

/-- A row of the target, which goes by `name`, beside a row of the source. -/
def joined (name : ObjectName) (t s : Row V) : Scope V := [(name, t), (⟨none, sourceAlias⟩, s)]

/-- What may become of a row of the target: without a match it is kept, otherwise it takes over the
values of one of the source rows that match. -/
inductive Rewrites (w : World V) (on : Option Expr) (name : ObjectName)
    (sets : List (String × Expr)) (source : Table V) (t : Row V) : Row V → Prop where
  | kept (unmatched : ∀ s ∈ source, Expr.passes w on (joined name t s) = false) :
      Rewrites w on name sets source t t
  | overwritten {s : Row V} (member : s ∈ source)
      (matched : Expr.passes w on (joined name t s) = true) :
      Rewrites w on name sets source t (t.assign (assigned w sets (joined name t s)))

/-- Two tables of an update go by one name: the target, whose columns are qualified by its own name,
is called like the alias of the source. That is told from the names as they are written: the target
has no schema, and its name is the alias, letter for letter. A table in a schema keeps a name of its
own here, and so does one whose name differs in case only; what a database that ignores schemas or
case makes of such names is left to the database. -/
def JoinedUpdate.clashes (style : UpdateStyle) (s : JoinedUpdate) : Prop :=
  s.targetName style = ⟨none, sourceAlias⟩

/-- What an update from a joined source may do. -/
inductive JoinedUpdate.Runs (style : UpdateStyle) (w : World V) (s : JoinedUpdate) :
    World V → Prop where
  | intro {on : Expr} {rows : Table V} (supported : style ≠ .unsupported)
      (distinctNames : ¬ s.clashes style) (onKeys : s.predicate? style = some on)
      (rewritten : List.Forall₂
        (Rewrites w (some on) (s.targetName style) (fromSource s.columns) (sourceRows w s.source))
        (w.tables s.target) rows) :
      JoinedUpdate.Runs style w s (w.set s.target rows)

namespace Merge

/-- Whether a row of the target and a row of the source match. -/
def matched (w : World V) (m : Merge) (t s : Row V) : Bool :=
  Expr.passes w m.predicate? (joined ⟨none, targetAlias⟩ t s)

/-- The row that is inserted for a row of the source. -/
def inserted (w : World V) (m : Merge) (s : Row V) : Row V :=
  Row.ofPairs (m.insertColumns.zip (Expr.evalAll w m.insertValues [(⟨none, sourceAlias⟩, s)]))

/-- What a native merge does: it overwrites the rows that match and inserts the source rows that
match none. -/
inductive NativeRuns (w : World V) (m : Merge) : World V → Prop where
  | intro {on : Expr} {rows : Table V} (onKeys : m.predicate? = some on)
      (single : ∀ t ∈ w.tables m.target, (sourceRows w m.source).Pairwise fun s s' =>
        ¬ (m.matched w t s = true ∧ m.matched w t s' = true))
      (rewritten : List.Forall₂
        (Rewrites w (some on) ⟨none, targetAlias⟩ (fromSource m.updatable) (sourceRows w m.source))
        (w.tables m.target) rows) :
      NativeRuns w m (w.set m.target (rows ++
        ((sourceRows w m.source).filter fun s => ! (w.tables m.target).any fun t =>
          m.matched w t s).map (m.inserted w)))

/-- What the fallback does: an update where there is something to update, and an insert. -/
inductive FallbackRuns (style : UpdateStyle) (w : World V) (m : Merge) : World V → Prop where
  | insertOnly (nothing : m.updatable = []) : FallbackRuns style w m (m.fallbackInsert.run w)
  | updateThenInsert {w' : World V} (something : m.updatable ≠ [])
      (update : m.fallbackUpdate.Runs style w w') :
      FallbackRuns style w m (m.fallbackInsert.run w')

/-- What a merge does in a dialect. -/
def Runs (d : Dialect) (w : World V) (m : Merge) (w' : World V) : Prop :=
  if d.hasMerge then m.NativeRuns w w' else m.FallbackRuns d.updateStyle w w'

end Merge

/-! ### Statements -/

/-- What a statement that changes rows does in a dialect. -/
inductive Statement.Runs (d : Dialect) (w : World V) : Statement → World V → Prop where
  | insert (s : Insert) : Statement.Runs d w (.insert s) (s.run w)
  | update (s : Update) : Statement.Runs d w (.update s) (s.run w)
  | delete (s : Delete) : Statement.Runs d w (.delete s) (s.run w)
  | merge {m : Merge} {w' : World V} (run : m.Runs d w w') : Statement.Runs d w (.merge m) w'

/-- What statements do one after another. -/
inductive RunsAll (d : Dialect) : World V → List Statement → World V → Prop where
  | nil (w : World V) : RunsAll d w [] w
  | cons {w w' w'' : World V} {s : Statement} {rest : List Statement} (first : s.Runs d w w')
      (others : RunsAll d w' rest w'') : RunsAll d w (s :: rest) w''

/-- A script without statements changes nothing. -/
@[simp] theorem runsAll_nil {d : Dialect} {w w' : World V} : RunsAll d w [] w' ↔ w' = w :=
  ⟨fun | .nil _ => rfl, by rintro rfl; exact .nil w'⟩

/-- An insert does what it does, and then the rest of the script runs. -/
@[simp] theorem runsAll_insert {d : Dialect} {w w' : World V} {s : Insert} {rest : List Statement} :
    RunsAll d w (.insert s :: rest) w' ↔ RunsAll d (s.run w) rest w' :=
  ⟨fun | .cons (.insert _) others => others, .cons (.insert s)⟩

/-- So does an update. -/
@[simp] theorem runsAll_update {d : Dialect} {w w' : World V} {s : Update} {rest : List Statement} :
    RunsAll d w (.update s :: rest) w' ↔ RunsAll d (s.run w) rest w' :=
  ⟨fun | .cons (.update _) others => others, .cons (.update s)⟩

/-- So does a delete. -/
@[simp] theorem runsAll_delete {d : Dialect} {w w' : World V} {s : Delete} {rest : List Statement} :
    RunsAll d w (.delete s :: rest) w' ↔ RunsAll d (s.run w) rest w' :=
  ⟨fun | .cons (.delete _) others => others, .cons (.delete s)⟩

/-- What a merge does is not determined by the statement alone, so the rest runs in any of the
worlds it may leave. -/
theorem runsAll_merge {d : Dialect} {w w' : World V} {m : Merge} {rest : List Statement} :
    RunsAll d w (.merge m :: rest) w' ↔ ∃ u, m.Runs d w u ∧ RunsAll d u rest w' :=
  ⟨fun | .cons (.merge run) others => ⟨_, run, others⟩,
    fun ⟨_, run, others⟩ => .cons (.merge run) others⟩

end Warehouse.Sql
