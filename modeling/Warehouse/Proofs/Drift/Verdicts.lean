/-
Module: Warehouse.Proofs.Drift.Verdicts
Purpose: What the verdicts on the columns of a dataset ask for can be done. Each verdict rests on
  the live columns alone, except that a live column is renamed at most once; and since the names of
  the declared columns differ, what one verdict asks for does not stand in the way of another.
Trusted boundary: none
Main exports: Dataset.DistinctLowerNames, freeFormers, Judged, judged_of_mem, exists_verdict_iff,
  mem_verdictSteps_iff, renamable_tableVerdicts, VerdictsDone, exists_verdictsDone
-/
import Mathlib.Data.List.Nodup
import Warehouse.Proofs.Catalog.Columns
import Warehouse.Proofs.Drift.Change

namespace Warehouse

open Sql (ColumnSpec DataType Dialect)

/-- No two columns have one name in small letters. -/
def Dataset.DistinctLowerNames (d : Dataset) : Prop :=
  (d.columns.map fun c => Text.lower c.name).Nodup

instance (d : Dataset) : Decidable d.DistinctLowerNames :=
  inferInstanceAs (Decidable (List.Nodup _))

/-- The live columns, besides the claimed ones, that the former names of a column point to. -/
def freeFormers (d : Dataset) (live : List LiveColumn) (claimed : List String) (c : Column) :
    List LiveColumn :=
  ((renameCandidates d c).filter fun n =>
    ! (d.columns.map fun c => Text.lower c.name).contains n && ! claimed.contains n).filterMap
      (liveColumn? live)

/-- What a verdict on a column rests on. -/
inductive Judged (dialect : Dialect) (policy : DriftPolicy) (d : Dataset) (live : List LiveColumn)
    (c : Column) : ColumnVerdict → Prop where
  | existing {e : LiveColumn} (found : liveColumn? live (Text.lower c.name) = some e) :
      Judged dialect policy d live c (existingVerdict dialect policy c e)
  | missing (claimed : List String) (absent : liveColumn? live (Text.lower c.name) = none) :
      Judged dialect policy d live c (missingVerdict c (freeFormers d live claimed c))

section

variable {dialect : Dialect} {policy : DriftPolicy} {d : Dataset} {live : List LiveColumn}

/-- There is a verdict on each column, in the order of the columns. -/
private theorem map_fst_columnVerdicts (claimed : List String) (columns : List Column) :
    (columnVerdicts dialect policy d live claimed columns).map Prod.fst = columns := by
  induction columns generalizing claimed with
  | nil => rfl
  | cons c rest ih =>
    rw [columnVerdicts]
    split
    · rw [List.map_cons, ih]
    · rw [List.map_cons, ih]

/-- Each verdict on a column of a table was come to by the rules for single columns. -/
theorem judged_of_mem {claimed : List String} {columns : List Column} {c : Column}
    {v : ColumnVerdict} (member : (c, v) ∈ columnVerdicts dialect policy d live claimed columns) :
    Judged dialect policy d live c v := by
  induction columns generalizing claimed with
  | nil => cases member
  | cons first rest ih =>
    rw [columnVerdicts] at member
    split at member
    · next e found =>
      rcases List.mem_cons.mp member with here | later
      · obtain ⟨column, verdict⟩ := Prod.mk.inj here
        rw [column, verdict]
        exact .existing found
      · exact ih later
    · next absent =>
      rcases List.mem_cons.mp member with here | later
      · obtain ⟨column, verdict⟩ := Prod.mk.inj here
        rw [column, verdict]
        exact .missing claimed absent
      · exact ih later

/-- A former column is there under its name, which is neither declared nor claimed. -/
theorem of_mem_freeFormers {claimed : List String} {c : Column} {f : LiveColumn}
    (member : f ∈ freeFormers d live claimed c) :
    liveColumn? live (Text.lower f.name) = some f ∧
      Text.lower f.name ∉ d.columns.map (fun c => Text.lower c.name) ∧
      Text.lower f.name ∉ claimed := by
  obtain ⟨n, candidate, found⟩ := List.mem_filterMap.mp member
  obtain ⟨_, free⟩ := List.mem_filter.mp candidate
  rw [liveColumn?_lower found]
  simp only [Bool.and_eq_true, Bool.not_eq_true', List.contains_eq_mem,
    decide_eq_false_iff_not] at free
  exact ⟨found, free.1, free.2⟩

/-! ### Verdicts one by one -/

/-- A column is renamed only from its one former name that is free. -/
theorem missingVerdict_eq_rename {c : Column} {formers : List LiveColumn} {former : LiveColumn}
    (verdict : missingVerdict c formers = .rename former) : formers = [former] := by
  cases formers with
  | nil =>
    rw [missingVerdict] at verdict
    split at verdict <;> cases verdict
  | cons f others =>
    cases others with
    | nil =>
      cases verdict
      rfl
    | cons _ _ => cases verdict

/-- A column that is there is kept, retyped or reported. -/
theorem existingVerdict_cases (dialect : Dialect) (policy : DriftPolicy) (c : Column)
    (e : LiveColumn) : existingVerdict dialect policy c e = .keep ∨
      existingVerdict dialect policy c e = .incomparable e.datatype ∨
      ∃ declared live, existingVerdict dialect policy c e = .retype declared ∨
        existingVerdict dialect policy c e = .drifted declared live := by
  unfold existingVerdict
  split
  · exact .inl rfl
  · exact .inl rfl
  · exact .inr (.inl rfl)
  · next declared live _ =>
    refine .inr (.inr ⟨declared, live, ?_⟩)
    split
    · exact .inl rfl
    · exact .inr rfl

/-- A column that is there is not renamed. -/
theorem existingVerdict_ne_rename (dialect : Dialect) (policy : DriftPolicy) (c : Column)
    (e former : LiveColumn) : existingVerdict dialect policy c e ≠ .rename former := by
  intro verdict
  rcases existingVerdict_cases dialect policy c e with
    same | same | ⟨_, _, same | same⟩ <;> rw [same] at verdict <;> cases verdict

/-- A column that is missing is added, renamed or reported. -/
theorem missingVerdict_cases (c : Column) (formers : List LiveColumn) :
    (∃ type, missingVerdict c formers = .add type) ∨ missingVerdict c formers = .unresolved ∨
      (∃ former, missingVerdict c formers = .rename former) ∨
      missingVerdict c formers = .ambiguous formers := by
  match formers with
  | [] =>
    unfold missingVerdict
    cases c.type? with
    | some type => exact .inl ⟨type, rfl⟩
    | none => exact .inr (.inl rfl)
  | [former] => exact .inr (.inr (.inl ⟨former, rfl⟩))
  | _ :: _ :: _ => exact .inr (.inr (.inr rfl))

namespace Judged

variable {c : Column} {v : ColumnVerdict}

/-- A column that is renamed was missing, and its former name was free. -/
theorem of_rename {former : LiveColumn} (judged : Judged dialect policy d live c (.rename former)) :
    liveColumn? live (Text.lower c.name) = none ∧ ∃ claimed,
    former ∈ freeFormers d live claimed c := by
  generalize verdict : ColumnVerdict.rename former = v at judged
  cases judged with
  | @existing e found =>
    exact absurd verdict.symm (existingVerdict_ne_rename dialect policy c e former)
  | missing claimed absent =>
    have only := missingVerdict_eq_rename verdict.symm
    exact ⟨absent, claimed, by rw [only]; exact List.mem_singleton_self former⟩

/-- A column that is added was missing. -/
theorem of_add {type : DataType} (judged : Judged dialect policy d live c (.add type)) :
    liveColumn? live (Text.lower c.name) = none := by
  generalize verdict : ColumnVerdict.add type = v at judged
  cases judged with
  | @existing e found =>
    rcases existingVerdict_cases dialect policy c e with
      same | same | ⟨_, _, same | same⟩ <;> rw [same] at verdict <;> cases verdict
  | missing claimed absent => exact absent

/-- A column that is retyped was there. -/
theorem of_retype {type : DataType} (judged : Judged dialect policy d live c (.retype type)) :
    hasColumn live c.name = true := by
  generalize verdict : ColumnVerdict.retype type = v at judged
  cases judged with
  | existing found => exact Option.isSome_iff_exists.mpr ⟨_, found⟩
  | missing claimed absent =>
    rcases missingVerdict_cases c (freeFormers d live claimed c) with
      ⟨_, same⟩ | same | ⟨_, same⟩ | same <;> rw [same] at verdict <;> cases verdict

end Judged

/-! ### What verdicts ask for

The steps of a table are read off its verdicts: renames, new columns, new types. Each list is named
by itself, so that the steps can be gone through one kind at a time. -/

/-- The former and the new name of a column that is to be renamed. -/
def renamed? : Column × ColumnVerdict → Option (String × String)
  | (c, .rename former) => some (former.name, c.name)
  | _ => none

/-- A column that is to be added. -/
def added? : Column × ColumnVerdict → Option ColumnSpec
  | (c, .add type) => some ⟨c.name, type, true⟩
  | _ => none

/-- The name and the new type of a column that is to be retyped. -/
def retyped? : Column × ColumnVerdict → Option (String × DataType)
  | (c, .retype type) => some (c.name, type)
  | _ => none

/-- Nothing is renamed by a verdict that is no rename. -/
theorem renamed?_eq_none {c : Column} {v : ColumnVerdict} (stays : ∀ former, v ≠ .rename former) :
    renamed? (c, v) = none := by
  cases v with
  | rename former => exact absurd rfl (stays former)
  | _ => rfl

/-- The renames are those of the verdicts that ask for one. -/
theorem mem_renamed {vs : List (Column × ColumnVerdict)} {r : String × String} :
    r ∈ vs.filterMap renamed? ↔ ∃ c former, (c, .rename former) ∈ vs ∧
    r = (former.name, c.name) := by
  rw [List.mem_filterMap]
  constructor
  · rintro ⟨⟨c, v⟩, member, asked⟩
    cases v <;> cases asked
    exact ⟨c, _, member, rfl⟩
  · rintro ⟨c, former, member, rfl⟩
    exact ⟨_, member, rfl⟩

/-- The new columns are those of the verdicts that ask for one. -/
theorem mem_added {vs : List (Column × ColumnVerdict)} {spec : ColumnSpec} :
    spec ∈ vs.filterMap added? ↔ ∃ c type, (c, .add type) ∈ vs ∧ spec = ⟨c.name, type, true⟩ := by
  rw [List.mem_filterMap]
  constructor
  · rintro ⟨⟨c, v⟩, member, asked⟩
    cases v <;> cases asked
    exact ⟨c, _, member, rfl⟩
  · rintro ⟨c, type, member, rfl⟩
    exact ⟨_, member, rfl⟩

/-- The new types are those of the verdicts that ask for one. -/
theorem mem_retyped {vs : List (Column × ColumnVerdict)} {r : String × DataType} :
    r ∈ vs.filterMap retyped? ↔ ∃ c type, (c, .retype type) ∈ vs ∧ r = (c.name, type) := by
  rw [List.mem_filterMap]
  constructor
  · rintro ⟨⟨c, v⟩, member, asked⟩
    cases v <;> cases asked
    exact ⟨c, _, member, rfl⟩
  · rintro ⟨c, type, member, rfl⟩
    exact ⟨_, member, rfl⟩

private theorem renameStep?_eq (d : Dataset) (v : Column × ColumnVerdict) :
    renameStep? d v = (renamed? v).map fun r => .renameColumn d.schema d.name r.1 r.2 := by
  obtain ⟨c, v⟩ := v
  cases v <;> rfl

private theorem addStep?_eq (d : Dataset) (v : Column × ColumnVerdict) :
    addStep? d v = (added? v).map fun spec => .addColumn d.schema d.name spec := by
  obtain ⟨c, v⟩ := v
  cases v <;> rfl

private theorem retypeStep?_eq (d : Dataset) (v : Column × ColumnVerdict) :
    retypeStep? d v = (retyped? v).map fun r => .alterColumnType d.schema d.name r.1 r.2 := by
  obtain ⟨c, v⟩ := v
  cases v <;> rfl

/-- The claimed columns once a column has its verdict. -/
def claimedAfter (claimed : List String) : ColumnVerdict → List String
  | .rename former => Text.lower former.name :: claimed
  | _ => claimed

/-- A missing column is judged by the former names that are still free, and what it claims is not
free for the columns behind it. -/
theorem columnVerdicts_of_absent (claimed : List String) {c : Column} (rest : List Column)
    (absent : liveColumn? live (Text.lower c.name) = none) :
    columnVerdicts dialect policy d live claimed (c :: rest) =
      (c, missingVerdict c (freeFormers d live claimed c)) ::
        columnVerdicts dialect policy d live
          (claimedAfter claimed (missingVerdict c (freeFormers d live claimed c))) rest := by
  rw [columnVerdicts, absent]
  rfl

/-- No live column is renamed twice, and none that was claimed before. -/
theorem formers_apart (dialect : Dialect) (policy : DriftPolicy) (d : Dataset)
    (live : List LiveColumn) (claimed : List String) (columns : List Column) :
    (((columnVerdicts dialect policy d live claimed columns).filterMap renamed?).map
        fun r => Text.lower r.1).Nodup ∧
      ∀ r ∈ (columnVerdicts dialect policy d live claimed columns).filterMap renamed?,
        Text.lower r.1 ∉ claimed := by
  induction columns generalizing claimed with
  | nil => exact ⟨List.nodup_nil, fun r member => by cases member⟩
  | cons c rest ih =>
    cases search : liveColumn? live (Text.lower c.name) with
    | some e =>
      have stays : renamed? (c, existingVerdict dialect policy c e) = none :=
        renamed?_eq_none (existingVerdict_ne_rename dialect policy c e)
      rw [columnVerdicts, search, List.filterMap_cons_none stays]
      exact ih claimed
    | none =>
      rw [columnVerdicts_of_absent claimed rest search]
      rcases missingVerdict_cases c (freeFormers d live claimed c) with
        ⟨_, verdict⟩ | verdict | ⟨former, verdict⟩ | verdict <;> rw [verdict]
      · exact ih claimed
      · exact ih claimed
      · obtain ⟨apart, fresh⟩ := ih (Text.lower former.name :: claimed)
        have only := missingVerdict_eq_rename verdict
        have free : Text.lower former.name ∉ claimed :=
          (of_mem_freeFormers (by rw [only]; exact List.mem_singleton_self former)).2.2
        have first : renamed? (c, .rename former) = some (former.name, c.name) := rfl
        rw [List.filterMap_cons_some first, List.map_cons, List.nodup_cons]
        refine ⟨⟨fun again => ?_, apart⟩, fun r member => ?_⟩
        · obtain ⟨r, member, same⟩ := List.mem_map.mp again
          exact fresh r member (same ▸ List.mem_cons_self)
        · rcases List.mem_cons.mp member with rfl | later
          · exact free
          · exact fun old => fresh r later (List.mem_cons_of_mem _ old)
      · exact ih claimed

/-! ### Verdicts are carried out -/

/-- The verdicts on all columns of a dataset, given the live columns of its table. -/
def tableVerdicts (dialect : Dialect) (policy : DriftPolicy) (d : Dataset)
    (live : List LiveColumn) : List (Column × ColumnVerdict) :=
  columnVerdicts dialect policy d live [] d.orderedColumns

/-- The steps that verdicts ask for. -/
def verdictSteps (d : Dataset) (vs : List (Column × ColumnVerdict)) : List DriftStep :=
  vs.filterMap (renameStep? d) ++ vs.filterMap (addStep? d) ++ vs.filterMap (retypeStep? d)

/-- The steps that verdicts ask for: each is a rename, an addition or a change of type. -/
theorem mem_verdictSteps_iff {vs : List (Column × ColumnVerdict)} {s : DriftStep} :
    s ∈ verdictSteps d vs ↔
      (∃ r ∈ vs.filterMap renamed?, s = .renameColumn d.schema d.name r.1 r.2) ∨
      (∃ spec ∈ vs.filterMap added?, s = .addColumn d.schema d.name spec) ∨
      ∃ r ∈ vs.filterMap retyped?, s = .alterColumnType d.schema d.name r.1 r.2 := by
  have renames : vs.filterMap (renameStep? d) =
      (vs.filterMap renamed?).map fun r => .renameColumn d.schema d.name r.1 r.2 := by
    rw [List.map_filterMap, funext (renameStep?_eq d)]
  have adds : vs.filterMap (addStep? d) =
      (vs.filterMap added?).map fun spec => .addColumn d.schema d.name spec := by
    rw [List.map_filterMap, funext (addStep?_eq d)]
  have retypes : vs.filterMap (retypeStep? d) =
      (vs.filterMap retyped?).map fun r => .alterColumnType d.schema d.name r.1 r.2 := by
    rw [List.map_filterMap, funext (retypeStep?_eq d)]
  rw [verdictSteps, renames, adds, retypes]
  simp only [List.mem_append, List.mem_map, or_assoc, eq_comm]

/-- A table has its columns judged in their order. -/
private theorem map_fst_tableVerdicts (dialect : Dialect) (policy : DriftPolicy) (d : Dataset)
    (live : List LiveColumn) :
    (tableVerdicts dialect policy d live).map Prod.fst = d.orderedColumns :=
  map_fst_columnVerdicts [] d.orderedColumns

/-- The declared columns are those with a verdict. -/
theorem exists_verdict_iff {c : Column} :
    (∃ v, (c, v) ∈ tableVerdicts dialect policy d live) ↔ c ∈ d.columns := by
  rw [← mem_orderedColumns, ← map_fst_tableVerdicts dialect policy d live, List.mem_map]
  constructor
  · rintro ⟨v, member⟩
    exact ⟨(c, v), member, rfl⟩
  · rintro ⟨⟨_, v⟩, member, rfl⟩
    exact ⟨v, member⟩

/-- No column is judged twice where names differ in small letters. -/
theorem nodup_tableVerdicts (distinct : d.DistinctLowerNames) :
    ((tableVerdicts dialect policy d live).map fun v => Text.lower v.1.name).Nodup := by
  have names : (tableVerdicts dialect policy d live).map (fun v => Text.lower v.1.name) =
      d.orderedColumns.map fun c => Text.lower c.name := by
    rw [← map_fst_tableVerdicts dialect policy d live, List.map_map]
    rfl
  rw [names]
  exact ((List.mergeSort_perm d.columns _).map _).nodup_iff.mpr distinct

/-- Columns of one name have one verdict. -/
theorem verdict_unique (distinct : d.DistinctLowerNames) {c c' : Column} {v v' : ColumnVerdict}
    (member : (c, v) ∈ tableVerdicts dialect policy d live)
    (member' : (c', v') ∈ tableVerdicts dialect policy d live)
    (same : Text.lower c.name = Text.lower c'.name) : v = v' :=
  congrArg Prod.snd (List.inj_on_of_nodup_map (nodup_tableVerdicts distinct) member member' same)

/-- All renames of a table can be done one after the other. -/
theorem renamable_tableVerdicts (distinct : d.DistinctLowerNames) :
    Renamable live ((tableVerdicts dialect policy d live).filterMap renamed?) where
  there r member := by
    obtain ⟨c, former, verdict, rfl⟩ := mem_renamed.mp member
    obtain ⟨_, claimed, free⟩ := (judged_of_mem verdict).of_rename
    exact ⟨former, (of_mem_freeFormers free).1, rfl⟩
  free r member := by
    obtain ⟨c, former, verdict, rfl⟩ := mem_renamed.mp member
    exact hasColumn_eq_false_iff.mpr (judged_of_mem verdict).of_rename.1
  once := (formers_apart dialect policy d live [] d.orderedColumns).1
  apart := by
    refine (map_filterMap_sublist ?_ _).nodup (nodup_tableVerdicts distinct)
    rintro ⟨c, v⟩ r asked
    cases v <;> cases asked
    rfl

/-- What has become of the columns of a table once the verdicts are carried out: each has its old
name or the one that a verdict gave it, new ones stand behind them, and a declared column is missing
only if its verdict could not decide. -/
structure VerdictsDone (vs : List (Column × ColumnVerdict)) (live after : List LiveColumn) :
    Prop where
  kept : ∃ kept more, after.map LiveColumn.name = kept ++ more ∧
    List.Forall₂ (fun c name => name = c.name ∨ (c.name, name) ∈ vs.filterMap renamed?) live kept
  present : ∀ c v, (c, v) ∈ vs → v ≠ .unresolved → (∀ formers, v ≠ .ambiguous formers) →
    hasColumn after c.name = true

/-- The columns that renames leave alone are found as before. -/
theorem hasColumn_of_renames {renamed : List LiveColumn}
    (done : RenamesDone ((tableVerdicts dialect policy d live).filterMap renamed?) live renamed)
    {c : Column} {v : ColumnVerdict} (member : (c, v) ∈ tableVerdicts dialect policy d live)
    (distinct : d.DistinctLowerNames) (stays : ∀ former, v ≠ .rename former) :
    hasColumn renamed c.name = hasColumn live c.name := by
  refine done.others c.name ?_ ?_
  · intro given_up
    obtain ⟨r, asked, same⟩ := List.mem_map.mp given_up
    obtain ⟨c', former, verdict, rfl⟩ := mem_renamed.mp asked
    obtain ⟨_, claimed, free⟩ := (judged_of_mem verdict).of_rename
    have declared : c ∈ d.columns := exists_verdict_iff.mp ⟨v, member⟩
    exact (of_mem_freeFormers free).2.1 (List.mem_map.mpr ⟨c, declared, same.symm⟩)
  · intro given
    obtain ⟨r, asked, same⟩ := List.mem_map.mp given
    obtain ⟨c', former, verdict, rfl⟩ := mem_renamed.mp asked
    exact stays former (verdict_unique distinct member verdict same.symm)

/-- Steps that are made from what verdicts ask for change columns as that says. -/
theorem foldlM_asked (dialect : Dialect) {β : Type} {asked : Column × ColumnVerdict → Option β}
    {step : β → DriftStep} {step? : Column × ColumnVerdict → Option DriftStep}
    (made : ∀ v, step? v = (asked v).map step)
    (vs : List (Column × ColumnVerdict)) (columns : List LiveColumn) :
    (vs.filterMap step?).foldlM (fun cs s => s.onColumns? dialect cs) columns =
      (vs.filterMap asked).foldlM (fun cs r => (step r).onColumns? dialect cs) columns := by
  have steps : vs.filterMap step? = (vs.filterMap asked).map step := by
    rw [List.map_filterMap, funext made]
  rw [steps, List.foldlM_map]

/-- All that the verdicts ask for can be done, in the order in which a plan does it. -/
theorem exists_verdictsDone (dialect : Dialect) (policy : DriftPolicy) (live : List LiveColumn)
    (distinct : d.DistinctLowerNames) :
    ∃ after, (verdictSteps d (tableVerdicts dialect policy d live)).foldlM
        (fun cs s => s.onColumns? dialect cs) live = some after ∧
      VerdictsDone (tableVerdicts dialect policy d live) live after := by
  have renamable : Renamable live ((tableVerdicts dialect policy d live).filterMap renamed?) :=
    renamable_tableVerdicts distinct
  obtain ⟨renamed, first, done⟩ := renames_run renamable
  have free : ∀ spec ∈ (tableVerdicts dialect policy d live).filterMap added?,
      hasColumn renamed spec.name = false := by
    intro spec member
    obtain ⟨c, type, verdict, rfl⟩ := mem_added.mp member
    rw [hasColumn_of_renames done verdict distinct (fun _ same => by cases same)]
    exact hasColumn_eq_false_iff.mpr (judged_of_mem verdict).of_add
  have apart : (((tableVerdicts dialect policy d live).filterMap added?).map
      fun spec => Text.lower spec.name).Nodup := by
    refine (map_filterMap_sublist ?_ _).nodup (nodup_tableVerdicts distinct)
    rintro ⟨c, v⟩ spec asked
    cases v <;> cases asked
    rfl
  have second := adds_run dialect free apart
  have there : ∀ r ∈ (tableVerdicts dialect policy d live).filterMap retyped?,
      hasColumn (renamed ++ ((tableVerdicts dialect policy d live).filterMap added?).map
        (addedColumn dialect)) r.1 = true := by
    intro r member
    obtain ⟨c, type, verdict, rfl⟩ := mem_retyped.mp member
    rw [hasColumn_append, hasColumn_of_renames done verdict distinct (fun _ same => by cases same),
      (judged_of_mem verdict).of_retype, Bool.true_or]
  obtain ⟨after, third, names⟩ := retypes_run dialect there
  refine ⟨after, ?_, ?_, ?_⟩
  · have renames := (foldlM_asked dialect (renameStep?_eq d)
      (tableVerdicts dialect policy d live) live).trans first
    have adds := (foldlM_asked dialect (addStep?_eq d)
      (tableVerdicts dialect policy d live) renamed).trans second
    have retypes := (foldlM_asked dialect (retypeStep?_eq d)
      (tableVerdicts dialect policy d live) _).trans third
    rw [verdictSteps, List.foldlM_append, List.foldlM_append, renames, Option.bind_eq_bind,
      Option.bind_some, adds, Option.bind_some, retypes]
  · refine ⟨renamed.map LiveColumn.name, _, by rw [names, List.map_append], ?_⟩
    exact List.forall₂_map_right_iff.mpr done.kept
  · intro c v member resolved decided
    rw [hasColumn_congr names, hasColumn_append]
    cases judged_of_mem member with
    | @existing e found =>
      have old : hasColumn live c.name = true := Option.isSome_iff_exists.mpr ⟨e, found⟩
      have stays := existingVerdict_ne_rename dialect policy c e
      rw [hasColumn_of_renames done member distinct stays, old, Bool.true_or]
    | missing claimed absent =>
      rcases missingVerdict_cases c (freeFormers d live claimed c) with
        ⟨type, verdict⟩ | verdict | ⟨former, verdict⟩ | verdict
      · rw [verdict] at member
        have added :=
          List.mem_map_of_mem (f := addedColumn dialect) (mem_added.mpr ⟨c, type, member, rfl⟩)
        rw [Bool.or_eq_true]
        exact .inr (hasColumn_eq_true_iff.mpr ⟨_, added, rfl⟩)
      · exact absurd verdict resolved
      · rw [verdict] at member
        rw [done.given _ (mem_renamed.mpr ⟨c, former, member, rfl⟩), Bool.true_or]
      · exact absurd verdict (decided _)

end

end Warehouse
