/-
Module: Warehouse.Proofs.Sql.MergeFallback
Purpose: A merge and its fallback mean the same. Both come to the closed form of a merge; the
  fallback gets there because its update leaves the keys alone, so that its insert finds the same
  source rows unmatched.
Trusted boundary: none
Main exports: Merge.nativeRuns_iff, Merge.fallbackRuns_iff, Merge.runs_iff,
  Merge.fallback_means_native
-/
import Warehouse.Proofs.Lists
import Warehouse.Proofs.Sql.Merged

namespace Warehouse.Sql

variable {V : Type} [LinearOrder V]

/-! ### Joined rows

A joined row has a part for the target and a part for the source. What the update reads from it is
told by these parts alone, as long as the target does not take the name of the source. -/

section

variable (w : World V)

omit [LinearOrder V] in
/-- The source is found under its alias, unless the target is named like it. -/
theorem lookup_joined {name : ObjectName} (apart : name ≠ ⟨none, sourceAlias⟩) (t s : Row V) :
    List.lookup ⟨none, sourceAlias⟩ (joined name t s) = some s := by
  rw [joined, Scope.lookup_cons_of_ne apart.symm, List.lookup_cons_self]

/-- What an update takes from the source is the values of the source row. -/
theorem assigned_fromSource {name : ObjectName} (apart : name ≠ ⟨none, sourceAlias⟩)
    (columns : List String) (t s : Row V) :
    assigned w (fromSource columns) (joined name t s) = takenOver columns s := by
  simp [assigned, fromSource, takenOver, sourceColumn, Expr.colOf, Expr.eval, Scope.find,
    lookup_joined apart]

/-- The condition of the join is that the rows agree on the keys. -/
theorem passes_keyPredicate {name : ObjectName} (apart : name ≠ ⟨none, sourceAlias⟩)
    (keys : List String) (t s : Row V) :
    Expr.passes w (keyPredicate? (.column (some name)) keys) (joined name t s) = t.agree keys s :=
  Expr.passes_keys w List.lookup_cons_self (lookup_joined apart t s) keys

/-- Where no target row matches twice, there is one thing that may become of a row. -/
theorem rewrites_iff {name : ObjectName} (apart : name ≠ ⟨none, sourceAlias⟩)
    {keys columns : List String} {target source : Table V} (once : MatchesOnce keys target source)
    {t t' : Row V} (member : t ∈ target) :
    Rewrites w (keyPredicate? (.column (some name)) keys) name (fromSource columns) source t t' ↔
      t' = mergedRow keys columns source t := by
  unfold mergedRow
  constructor
  · intro rewritten
    cases rewritten with
    | kept none_matches =>
      simp only [passes_keyPredicate w apart] at none_matches
      rw [List.find?_eq_none.mpr (by simpa using none_matches)]
    | @overwritten s hs matched =>
      rw [passes_keyPredicate w apart] at matched
      cases found : source.find? (t.agree keys) with
      | none => exact absurd matched (List.find?_eq_none.mp found s hs)
      | some s' =>
        have same : s = s' := once.eq member hs (List.mem_of_find?_eq_some found) matched
          (List.find?_some found)
        rw [assigned_fromSource w apart, same]
  · rintro rfl
    split
    next s found =>
      rw [← assigned_fromSource w apart columns t s]
      exact .overwritten (List.mem_of_find?_eq_some found)
        ((passes_keyPredicate w apart keys t s).trans (List.find?_some found))
    next found =>
      refine .kept fun s hs => ?_
      rw [passes_keyPredicate w apart]
      simpa using List.find?_eq_none.mp found s hs

end

/-! ### Both forms of a merge

The native form is one statement, the other an update and an insert. Each is brought to the closed
form of a merge, and then they are compared. -/

namespace Merge

variable (w : World V) (m : Merge)

private theorem apart_targetAlias :
    (⟨none, targetAlias⟩ : ObjectName) ≠ ⟨none, sourceAlias⟩ := by decide

private theorem predicate?_ne_none (keyed : m.keys ≠ []) (name : ObjectName) :
    ∃ on, keyPredicate? (.column (some name)) m.keys = some on := by
  obtain ⟨k, ks, keys⟩ := List.exists_cons_of_ne_nil keyed
  exact ⟨_, by rw [keyPredicate?, keys, List.map_cons, Expr.andAll]⟩

/-- Rows match in the native form if they agree on the keys. -/
theorem matched_eq (t s : Row V) : m.matched w t s = t.agree m.keys s :=
  passes_keyPredicate w apart_targetAlias m.keys t s

/-- What is inserted for a source row is its values. -/
theorem evalAll_insertValues (s : Row V) :
    Expr.evalAll w m.insertValues [(⟨none, sourceAlias⟩, s)] = m.insertColumns.map s.get := by
  simp [Expr.evalAll_eq_map, insertValues, sourceColumn, Expr.colOf, Expr.eval, Scope.find]

/-- The inserted row has the columns of the source row that are listed, and no others. -/
theorem inserted_eq (s : Row V) : m.inserted w s = Row.ofPairs (takenOver m.insertColumns s) := by
  rw [inserted, evalAll_insertValues, takenOver, List.map_prod_left_eq_zip]

/-- The rows that a merge inserts. -/
theorem insertedRows_eq :
    ((sourceRows w m.source).filter fun s => ! (w.tables m.target).any fun t => m.matched w t s).map
        (m.inserted w) =
      (unmatched m.keys (w.tables m.target) (sourceRows w m.source)).map fun s =>
        Row.ofPairs (takenOver m.insertColumns s) := by
  simp only [unmatched, matched_eq]
  exact List.map_congr_left fun s _ => inserted_eq w m s

/-- What a native merge does, where no target row matches twice. -/
theorem nativeRuns_iff (keyed : m.keys ≠ [])
    (once : MatchesOnce m.keys (w.tables m.target) (sourceRows w m.source)) {w' : World V} :
    m.NativeRuns w w' ↔ w' = w.set m.target
      (merged m.keys m.updatable m.insertColumns (w.tables m.target) (sourceRows w m.source)) := by
  obtain ⟨on, predicate⟩ := m.predicate?_ne_none keyed ⟨none, targetAlias⟩
  have closed (rows : Table V) :
      List.Forall₂ (Rewrites w (some on) ⟨none, targetAlias⟩ (fromSource m.updatable)
        (sourceRows w m.source)) (w.tables m.target) rows ↔
      rows = (w.tables m.target).map (mergedRow m.keys m.updatable (sourceRows w m.source)) := by
    rw [← predicate]
    exact forall₂_iff_eq_map fun t member _ => rewrites_iff w apart_targetAlias once member
  rw [merged, ← insertedRows_eq]
  constructor
  · rintro ⟨onKeys, single, rewritten⟩
    rw [show m.predicate? = some on from predicate, Option.some.injEq] at onKeys
    subst onKeys
    rw [(closed _).mp rewritten]
  · rintro rfl
    refine .intro predicate (fun t member => ?_) ((closed _).mpr rfl)
    simp only [matched_eq]
    exact once t member

/-- The rows that the fallback inserts. -/
theorem added_fallbackInsert :
    m.fallbackInsert.added w =
      (unmatched m.keys (w.tables m.target) (sourceRows w m.source)).map fun s =>
        Row.ofPairs (takenOver m.insertColumns s) := by
  have rowwise : (m.insertValues.map fun value => (⟨value, none⟩ : SelectItem)).all
      (fun i => i.expr.isRowwise) = true := by
    simp [insertValues, sourceColumn, Expr.colOf, Expr.isRowwise]
  have scopes : Source.scopes w (some (.subquery m.source sourceAlias)) [] =
      (sourceRows w m.source).map fun s => [(⟨none, sourceAlias⟩, s)] := by
    simp [Source.scopes, sourceRows, Source.frames]
  rw [← insertedRows_eq, fallbackInsert, Insert.added, Plan.rows,
    Select.rows_of_isRowwise w (by simpa [Select.isRowwise] using rowwise) rfl, scopes,
    List.filter_map, List.map_map, List.map_map]
  congr 1
  · funext s
    simp [inserted, Expr.evalAll_eq_map, insertValues, Function.comp_def]
  · refine List.filter_congr fun s _ => ?_
    simp [Expr.passes_exists, Plan.rows_probe_isEmpty, matchingRows, matched, joined]

/-- The closed form of the fallback's update, where no target row matches twice. -/
theorem fallbackUpdate_runs_iff {style : UpdateStyle} (supported : style ≠ .unsupported)
    (keyed : m.keys ≠ []) (apart : ¬ m.fallbackUpdate.clashes style)
    (once : MatchesOnce m.keys (w.tables m.target) (sourceRows w m.source)) {w' : World V} :
    m.fallbackUpdate.Runs style w w' ↔ w' = w.set m.target
      ((w.tables m.target).map (mergedRow m.keys m.updatable (sourceRows w m.source))) := by
  obtain ⟨on, predicate⟩ := m.predicate?_ne_none keyed (m.fallbackUpdate.targetName style)
  have closed (rows : Table V) :
      List.Forall₂
        (Rewrites w (some on) (m.fallbackUpdate.targetName style) (fromSource m.updatable)
          (sourceRows w m.source)) (w.tables m.target) rows ↔
      rows = (w.tables m.target).map (mergedRow m.keys m.updatable (sourceRows w m.source)) := by
    rw [← predicate]
    exact forall₂_iff_eq_map fun t member _ => rewrites_iff w apart once member
  constructor
  · rintro ⟨_, _, onKeys, rewritten⟩
    rw [show m.fallbackUpdate.predicate? style = some on from predicate, Option.some.injEq]
      at onKeys
    subst onKeys
    exact congrArg (w.set m.target) ((closed _).mp rewritten)
  · rintro rfl
    exact .intro supported apart predicate ((closed _).mpr rfl)

/-- What the fallback's insert does to rows that the update has merged. -/
theorem run_fallbackInsert (columns : List String) {w' : World V}
    (updated : w'.tables m.target =
      (w.tables m.target).map (mergedRow m.keys columns (sourceRows w m.source)))
    (sameSource : m.source.rows w' [] = m.source.rows w []) :
    m.fallbackInsert.run w' = w'.set m.target
      (merged m.keys columns m.insertColumns (w.tables m.target) (sourceRows w m.source)) := by
  have source : sourceRows w' m.source = sourceRows w m.source := by
    simp [sourceRows, Source.frames, sameSource]
  rw [Insert.run, added_fallbackInsert, source, merged,
    show m.fallbackInsert.target = m.target from rfl, updated, unmatched_map_mergedRow]

/-- What the fallback does, where no target row matches twice and the update does not change the
source. There is no run at all if the update needs the target's own name and that is the alias of
the source. -/
theorem fallbackRuns_iff {style : UpdateStyle} (supported : style ≠ .unsupported)
    (keyed : m.keys ≠ []) (once : MatchesOnce m.keys (w.tables m.target) (sourceRows w m.source))
    (sameSource : ∀ w', m.fallbackUpdate.Runs style w w' → m.source.rows w' [] = m.source.rows w [])
    {w' : World V} :
    m.FallbackRuns style w w' ↔ ¬ (m.updatable ≠ [] ∧ m.fallbackUpdate.clashes style) ∧
      w' = w.set m.target
        (merged m.keys m.updatable m.insertColumns (w.tables m.target)
          (sourceRows w m.source)) := by
  have updated {u : World V} (update : m.fallbackUpdate.Runs style w u) :
      m.fallbackInsert.run u = w.set m.target
        (merged m.keys m.updatable m.insertColumns (w.tables m.target)
          (sourceRows w m.source)) := by
    have source := sameSource u update
    obtain ⟨_, apart, _, _⟩ := id update
    rw [fallbackUpdate_runs_iff w m supported keyed apart once] at update
    rw [run_fallbackInsert w m m.updatable (by rw [update]; simp) source, update,
      World.set_set]
  have inserted (nothing : m.updatable = []) :
      m.fallbackInsert.run w = w.set m.target
        (merged m.keys m.updatable m.insertColumns (w.tables m.target) (sourceRows w m.source)) :=
    run_fallbackInsert w m m.updatable (by simp [nothing, mergedRow_nil]) rfl
  constructor
  · intro run
    cases run with
    | insertOnly nothing => exact ⟨fun h => h.1 nothing, inserted nothing⟩
    | updateThenInsert something update =>
      obtain ⟨_, apart, _, _⟩ := id update
      exact ⟨fun h => apart h.2, updated update⟩
  · rintro ⟨apart, rfl⟩
    by_cases nothing : m.updatable = []
    · rw [← inserted nothing]
      exact .insertOnly nothing
    · have update :=
        (fallbackUpdate_runs_iff w m supported keyed (fun h => apart ⟨nothing, h⟩) once).mpr rfl
      rw [← updated update]
      exact .updateThenInsert nothing update

/-- The names clash in one style only, and there for one target only. -/
theorem clashes_fallbackUpdate_iff {style : UpdateStyle} (supported : style ≠ .unsupported) :
    m.fallbackUpdate.clashes style ↔ style = .fromClause ∧ m.target = ⟨none, sourceAlias⟩ := by
  have apart : (⟨none, targetAlias⟩ : ObjectName) ≠ ⟨none, sourceAlias⟩ := apart_targetAlias
  cases style <;> simp_all [JoinedUpdate.clashes, JoinedUpdate.targetName, fallbackUpdate]

/-- A merge of the names that have arrived in a staging table, for the two examples below. -/
def namesInto (target : ObjectName) : Merge where
  target := target
  source := .select ⟨false, [⟨.col "id", none⟩, ⟨.col "name", none⟩],
    some (.table ⟨⟨some "stage", "delta"⟩, none⟩), none, []⟩
  keys := ["id"]
  updateColumns := ["name"]
  insertColumns := ["id", "name"]
  transactional := true

/-- One name that has arrived is new, the other is a correction. -/
def namesWorld : World String where
  engine := Engine.texts
  placeholder _ := none
  tables n :=
    if n = ⟨some "stage", "delta"⟩ then
      [.ofPairs [("id", some "1"), ("name", some "Ada")],
        .ofPairs [("id", some "2"), ("name", some "Bo")]]
    else [.ofPairs [("id", some "1"), ("name", some "ada")]]

/-- What a merge does in any dialect, into a table that is not called like the source. -/
theorem runs_iff {d : Dialect} (keyed : m.keys ≠ []) (apart : m.target ≠ ⟨none, sourceAlias⟩)
    (once : MatchesOnce m.keys (w.tables m.target) (sourceRows w m.source))
    (sameSource : ∀ w', m.fallbackUpdate.Runs d.updateStyle w w' →
      m.source.rows w' [] = m.source.rows w []) {w' : World V} :
    m.Runs d w w' ↔ w' = w.set m.target
      (merged m.keys m.updatable m.insertColumns (w.tables m.target) (sourceRows w m.source)) := by
  unfold Runs
  split
  · exact m.nativeRuns_iff w keyed once
  · next unmerged =>
    have supported : d.updateStyle ≠ .unsupported := by
      cases d <;> simp_all [Dialect.hasMerge, Dialect.updateStyle]
    rw [m.fallbackRuns_iff w supported keyed once sameSource,
      m.clashes_fallbackUpdate_iff supported]
    simp [apart]

/-- Where no target row matches two source rows and the update does not change the source, a native
merge has one result, and the fallback has no other. It has this result unless its update has to
qualify the target's columns with the target's own name and that is the alias of the source. -/
theorem fallback_means_native {style : UpdateStyle} (supported : style ≠ .unsupported)
    (keyed : m.keys ≠ []) (once : MatchesOnce m.keys (w.tables m.target) (sourceRows w m.source))
    (sameSource : ∀ w', m.fallbackUpdate.Runs style w w' →
      m.source.rows w' [] = m.source.rows w []) :
    ∃ after, (∀ w', m.NativeRuns w w' ↔ w' = after) ∧
      (∀ w', m.FallbackRuns style w w' → w' = after) ∧ ((∃ w', m.FallbackRuns style w w') ↔
        ¬ (m.updatable ≠ [] ∧ style = .fromClause ∧ m.target = ⟨none, sourceAlias⟩)) := by
  rw [← m.clashes_fallbackUpdate_iff supported]
  refine ⟨_, fun w' => m.nativeRuns_iff w keyed once, fun w' run => ?_, ?_⟩
  · exact ((m.fallbackRuns_iff w supported keyed once sameSource).mp run).2
  · simp [m.fallbackRuns_iff w supported keyed once sameSource]

/-- A table of names that is merged into by an update and an insert. -/
theorem fallback_means_native_for_names :
    ∃ after, (∀ w', (namesInto ⟨some "core", "names"⟩).NativeRuns namesWorld w' ↔ w' = after) ∧
      (∀ w', (namesInto ⟨some "core", "names"⟩).FallbackRuns .fromClause namesWorld w' →
        w' = after) ∧
      ((∃ w', (namesInto ⟨some "core", "names"⟩).FallbackRuns .fromClause namesWorld w') ↔
        ¬ ((namesInto ⟨some "core", "names"⟩).updatable ≠ [] ∧
          UpdateStyle.fromClause = .fromClause ∧
          (⟨some "core", "names"⟩ : ObjectName) = ⟨none, sourceAlias⟩)) :=
  fallback_means_native namesWorld (namesInto ⟨some "core", "names"⟩) (by decide) (by decide)
    (by unfold MatchesOnce; decide) (by rintro _ ⟨_, _, _, _⟩; rfl)

/-- The names that clash: the native merge runs, the fallback does not. -/
theorem no_fallback_into_src :
    (∃ w', (namesInto ⟨none, "src"⟩).NativeRuns namesWorld w') ∧
      ¬ ∃ w', (namesInto ⟨none, "src"⟩).FallbackRuns .fromClause namesWorld w' := by
  have once : MatchesOnce ["id"] (namesWorld.tables ⟨none, "src"⟩)
      (sourceRows namesWorld (namesInto ⟨none, "src"⟩).source) := by
    unfold MatchesOnce
    decide
  constructor
  · exact ⟨_, (nativeRuns_iff namesWorld (namesInto ⟨none, "src"⟩) (by decide) once).mpr rfl⟩
  · rintro ⟨w', run⟩
    cases run with
    | insertOnly nothing => exact absurd nothing (by decide)
    | updateThenInsert _ update =>
      obtain ⟨_, apart, _, _⟩ := update
      exact apart rfl

end Merge

end Warehouse.Sql
