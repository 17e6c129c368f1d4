/-
Module: Warehouse.Proofs.Drift.Ambiguity
Purpose: What becomes of an ambiguous column while a plan is carried out. Nothing is done about it,
  but one of its former columns may be renamed for another column and is then no candidate any more.
  If none is, the next verdict on the column is the same, and nothing else is renamed either: so
  nothing is claimed, and each verdict stands alone.
Trusted boundary: none
Main exports: verdictAlone, of_ambiguous, spelled_of_left, spelled_of_taken,
  names_freeFormers_after, notMem_names_freeFormers_after, tableVerdicts_after
-/
import Warehouse.Proofs.Drift.Names
import Warehouse.Proofs.Drift.Verdicts

namespace Warehouse

open Sql (ColumnSpec DataType Definition Dialect)

section

variable {dialect : Dialect} {policy : DriftPolicy} {d : Dataset} {live : List LiveColumn}

/-! ### Verdicts without claims -/

/-- The verdict on a column if no live column has been claimed before. -/
def verdictAlone (dialect : Dialect) (policy : DriftPolicy) (d : Dataset) (live : List LiveColumn)
    (c : Column) : ColumnVerdict :=
  match liveColumn? live (Text.lower c.name) with
  | some e => existingVerdict dialect policy c e
  | none => missingVerdict c (freeFormers d live [] c)

/-- If nothing is renamed, nothing is claimed, and each verdict stands alone. -/
theorem columnVerdicts_of_still {columns : List Column}
    (still : ∀ c ∈ columns, ∀ former, verdictAlone dialect policy d live c ≠ .rename former) :
    columnVerdicts dialect policy d live [] columns =
      columns.map fun c => (c, verdictAlone dialect policy d live c) := by
  induction columns with
  | nil => rfl
  | cons c rest ih =>
    have later := ih fun c' member => still c' (List.mem_cons_of_mem _ member)
    have here := still c List.mem_cons_self
    rw [List.map_cons, ← later]
    cases search : liveColumn? live (Text.lower c.name) with
    | some e =>
      rw [columnVerdicts, verdictAlone, search]
    | none =>
      have alone : verdictAlone dialect policy d live c =
          missingVerdict c (freeFormers d live [] c) := by
        rw [verdictAlone, search]
      have unclaimed : claimedAfter [] (missingVerdict c (freeFormers d live [] c)) = [] := by
        rw [← alone]
        cases verdict : verdictAlone dialect policy d live c with
        | rename former => exact absurd verdict (here former)
        | _ => rfl
      rw [columnVerdicts_of_absent [] rest search, unclaimed, ← alone]

/-- What has been claimed before the turn of a column is renamed. -/
theorem exists_claimed {claimed : List String} {columns : List Column} {c : Column}
    {v : ColumnVerdict} (member : (c, v) ∈ columnVerdicts dialect policy d live claimed columns)
    (absent : liveColumn? live (Text.lower c.name) = none) :
    ∃ claimed', v = missingVerdict c (freeFormers d live claimed' c) ∧
      ∀ n ∈ claimed', n ∈ claimed ∨
        ∃ r ∈ (columnVerdicts dialect policy d live claimed columns).filterMap renamed?,
          Text.lower r.1 = n := by
  induction columns generalizing claimed with
  | nil => cases member
  | cons first rest ih =>
    cases search : liveColumn? live (Text.lower first.name) with
    | some e =>
      have stays : renamed? (first, existingVerdict dialect policy first e) = none :=
        renamed?_eq_none (existingVerdict_ne_rename dialect policy first e)
      rw [columnVerdicts, search] at member ⊢
      rcases List.mem_cons.mp member with here | later
      · cases here
        rw [search] at absent
        cases absent
      · rw [List.filterMap_cons_none stays]
        exact ih later
    | none =>
      rw [columnVerdicts_of_absent claimed rest search] at member ⊢
      rcases List.mem_cons.mp member with here | later
      · cases here
        exact ⟨claimed, rfl, fun n old => .inl old⟩
      · obtain ⟨claimed', verdict, known⟩ := ih later
        refine ⟨claimed', verdict, fun n here => ?_⟩
        rcases known n here with before | ⟨r, renamed, same⟩
        · -- The claims after the first column are those before it, and what it is given itself.
          cases given : missingVerdict first (freeFormers d live claimed first) with
          | rename former =>
            rw [given] at before
            rcases List.mem_cons.mp before with rfl | old
            · exact .inr ⟨(former.name, first.name), List.mem_cons_self, rfl⟩
            · exact .inl old
          | _ =>
            rw [given] at before
            exact .inl before
        · refine .inr ⟨r, ?_, same⟩
          rw [List.filterMap_cons]
          split
          · exact renamed
          · exact List.mem_cons_of_mem _ renamed

/-! ### Ambiguous columns -/

/-- A column is ambiguous if it has several former columns. -/
theorem missingVerdict_eq_ambiguous_iff {c : Column} {formers formers' : List LiveColumn} :
    missingVerdict c formers = .ambiguous formers' ↔ formers = formers' ∧ 2 ≤ formers.length := by
  match formers with
  | [] =>
    rw [missingVerdict]
    cases c.type? <;> simp
  | [former] => simp [missingVerdict]
  | _ :: _ :: _ => simp [missingVerdict]

/-- The names under which the former columns of a column are found. -/
theorem names_freeFormers (claimed : List String) (c : Column) :
    (freeFormers d live claimed c).map LiveColumn.name =
      (renameCandidates d c).filterMap fun n =>
        if ! (d.columns.map fun c => Text.lower c.name).contains n && ! claimed.contains n then
          (spelled live n).getLast?
        else none := by
  rw [freeFormers, List.map_filterMap, List.filterMap_filter]
  apply List.filterMap_congr
  intro n _
  rw [name_liveColumn?]

/-- The verdict on an ambiguous column rests on several former columns, which nobody has claimed but
who renames them. -/
theorem of_ambiguous {c : Column} {formers : List LiveColumn}
    (member : (c, .ambiguous formers) ∈ tableVerdicts dialect policy d live) :
    liveColumn? live (Text.lower c.name) = none ∧ 2 ≤ formers.length ∧
      ∃ claimed, formers = freeFormers d live claimed c ∧
        ∀ n ∈ claimed, ∃ r ∈ (tableVerdicts dialect policy d live).filterMap renamed?,
        Text.lower r.1 = n := by
  have absent : liveColumn? live (Text.lower c.name) = none := by
    generalize verdict : ColumnVerdict.ambiguous formers = v at member
    cases judged_of_mem member with
    | @existing e found =>
      rcases existingVerdict_cases dialect policy c e with
        same | same | ⟨_, _, same | same⟩ <;> rw [same] at verdict <;> cases verdict
    | missing claimed absent => exact absent
  obtain ⟨claimed, verdict, known⟩ := exists_claimed member absent
  obtain ⟨same, several⟩ := missingVerdict_eq_ambiguous_iff.mp verdict.symm
  refine ⟨absent, same ▸ several, claimed, same.symm, fun n here => ?_⟩
  rcases known n here with before | renamed
  · cases before
  · exact renamed

/-! ### What is left of the names -/

/-- Names are given to columns whose verdict is clear. -/
theorem of_given {s : DriftStep} (member : s ∈ verdictSteps d (tableVerdicts dialect policy d live))
    {name : String} (given : name ∈ s.given?) :
    ∃ c v, (c, v) ∈ tableVerdicts dialect policy d live ∧ c.name = name ∧ ∀ formers,
    v ≠ .ambiguous formers := by
  rcases mem_verdictSteps_iff.mp member with ⟨_, rename, rfl⟩ | ⟨_, add, rfl⟩ | ⟨_, _, rfl⟩
  · obtain ⟨c, former, among, rfl⟩ := mem_renamed.mp rename
    cases given
    exact ⟨c, _, among, rfl, fun _ same => by cases same⟩
  · obtain ⟨c, type, among, rfl⟩ := mem_added.mp add
    cases given
    exact ⟨c, _, among, rfl, fun _ same => by cases same⟩
  · cases given

/-- Names are taken by the renames. -/
theorem exists_takes_iff {vs : List (Column × ColumnVerdict)} {lower : String} :
    (∃ s ∈ verdictSteps d vs, s.takes lower = true) ↔
      ∃ r ∈ vs.filterMap renamed?, Text.lower r.1 = lower := by
  constructor
  · rintro ⟨s, member, takes⟩
    rcases mem_verdictSteps_iff.mp member with ⟨r, renamed, rfl⟩ | ⟨_, _, rfl⟩ | ⟨_, _, rfl⟩
    · exact ⟨r, renamed, of_decide_eq_true takes⟩
    · cases takes
    · cases takes
  · rintro ⟨r, renamed, same⟩
    exact ⟨_, mem_verdictSteps_iff.mpr (.inl ⟨r, renamed, rfl⟩), decide_eq_true same⟩

/-- With distinct names, no two columns have one name in small letters. -/
theorem length_spelled_le_one (single : (live.map fun c => Text.lower c.name).Nodup)
    (lower : String) : (spelled live lower).length ≤ 1 := by
  have apart : ((spelled live lower).map Text.lower).Nodup := by
    refine List.Nodup.sublist (List.filter_sublist.map _) ?_
    rw [List.map_map]
    exact single
  have alike : ∀ name ∈ spelled live lower, Text.lower name = lower := by
    intro name member
    simpa using (List.mem_filter.mp member).2
  match names : spelled live lower with
  | [] => simp
  | [_] => simp
  | first :: second :: _ =>
    rw [names] at apart alike
    simp [alike] at apart

/-- No column is spelled like that exactly if none is found. -/
private theorem spelled_eq_nil_iff {lower : String} : spelled live lower = [] ↔
    liveColumn? live lower = none := by
  rw [← List.getLast?_eq_none_iff, ← name_liveColumn?, Option.map_eq_none_iff]

/-- No step gives a name that no column is declared under. -/
theorem fresh_of_undeclared {n : String}
    (undeclared : n ∉ d.columns.map fun c => Text.lower c.name) :
    ∀ s ∈ verdictSteps d (tableVerdicts dialect policy d live), ∀ name ∈ s.given?,
    Text.lower name ≠ n := by
  intro s member name given same
  obtain ⟨c, v, among, rfl, _⟩ := of_given member given
  exact undeclared (List.mem_map.mpr ⟨c, exists_verdict_iff.mp ⟨v, among⟩, same⟩)

section

variable {after : List LiveColumn}
  (run : (verdictSteps d (tableVerdicts dialect policy d live)).foldlM
    (fun cs s => s.onColumns? dialect cs) live = some after)

include run

/-- What no rename takes stays, if no column is declared under that name. -/
theorem spelled_of_left {n : String} (undeclared : n ∉ d.columns.map fun c => Text.lower c.name)
    (left : ∀ r ∈ (tableVerdicts dialect policy d live).filterMap renamed?, Text.lower r.1 ≠ n) :
    spelled after n = spelled live n := by
  have untaken : (verdictSteps d (tableVerdicts dialect policy d live)).countP
      (DriftStep.takes n) = 0 := by
    rw [List.countP_eq_zero]
    intro s member takes
    obtain ⟨r, renamed, same⟩ := exists_takes_iff.mp ⟨s, member, takes⟩
    exact left r renamed same
  rw [spelled_run run (fresh_of_undeclared undeclared), untaken, Nat.sub_zero, List.take_length]

/-- What a rename takes is gone, if no column is declared under that name. -/
theorem spelled_of_taken (single : (live.map fun c => Text.lower c.name).Nodup) {n : String}
    (undeclared : n ∉ d.columns.map fun c => Text.lower c.name)
    (taken : ∃ r ∈ (tableVerdicts dialect policy d live).filterMap renamed?, Text.lower r.1 = n) :
    spelled after n = [] := by
  have counted : 0 < (verdictSteps d (tableVerdicts dialect policy d live)).countP
      (DriftStep.takes n) :=
    List.countP_pos_iff.mpr (exists_takes_iff.mpr taken)
  have few := length_spelled_le_one single n
  have none_left : (spelled live n).length -
      (verdictSteps d (tableVerdicts dialect policy d live)).countP (DriftStep.takes n) = 0 := by
    omega
  rw [spelled_run run (fresh_of_undeclared undeclared), none_left, List.take_zero]

/-- An ambiguous column does not come to be there. -/
theorem spelled_of_ambiguous (distinct : d.DistinctLowerNames) {c : Column}
    {formers : List LiveColumn}
    (member : (c, .ambiguous formers) ∈ tableVerdicts dialect policy d live) :
    spelled after (Text.lower c.name) = [] := by
  have fresh : ∀ s ∈ verdictSteps d (tableVerdicts dialect policy d live), ∀ name ∈ s.given?,
      Text.lower name ≠ Text.lower c.name := by
    intro s step name given same
    obtain ⟨c', v, among, rfl, clear⟩ := of_given step given
    exact clear formers (verdict_unique distinct among member same)
  rw [spelled_run run fresh, spelled_eq_nil_iff.mpr (of_ambiguous member).1, List.take_nil]

/-- If none of its former columns is renamed, an ambiguous column is found to have the same ones
again. -/
theorem names_freeFormers_after (single : (live.map fun c => Text.lower c.name).Nodup) {c : Column}
    {formers : List LiveColumn}
    (member : (c, .ambiguous formers) ∈ tableVerdicts dialect policy d live)
    (spared : ∀ r ∈ (tableVerdicts dialect policy d live).filterMap renamed?,
      r.1 ∉ formers.map LiveColumn.name) :
    (freeFormers d after [] c).map LiveColumn.name = formers.map LiveColumn.name := by
  obtain ⟨_, _, claimed, same, known⟩ := of_ambiguous member
  rw [same, names_freeFormers, names_freeFormers]
  apply List.filterMap_congr
  intro n candidate
  by_cases declared : n ∈ d.columns.map fun c => Text.lower c.name
  · simp [declared]
  · by_cases before : n ∈ claimed
    · -- What was claimed before has been renamed since.
      simp [before, spelled_of_taken run single declared (known n before)]
    · have left : ∀ r ∈ (tableVerdicts dialect policy d live).filterMap renamed?,
          Text.lower r.1 ≠ n := by
        intro r renamed here
        obtain ⟨_, former, verdict, rfl⟩ := mem_renamed.mp renamed
        obtain ⟨_, _, free⟩ := (judged_of_mem verdict).of_rename
        have found : liveColumn? live n = some former := here ▸ (of_mem_freeFormers free).1
        have among : former ∈ formers := by
          rw [same]
          exact List.mem_filterMap.mpr
            ⟨n, List.mem_filter.mpr ⟨candidate, by simp [declared, before]⟩, found⟩
        exact spared _ renamed (List.mem_map.mpr ⟨former, among, rfl⟩)
      simp [declared, before, spelled_of_left run declared left]

/-- A former column that is renamed for another column is no former column any more. -/
theorem notMem_names_freeFormers_after (single : (live.map fun c => Text.lower c.name).Nodup)
    {r : String × String} (renamed : r ∈ (tableVerdicts dialect policy d live).filterMap renamed?)
    (claimed : List String) (c : Column) :
    r.1 ∉ (freeFormers d after claimed c).map LiveColumn.name := by
  intro member
  obtain ⟨_, former, verdict, rfl⟩ := mem_renamed.mp renamed
  obtain ⟨_, _, free⟩ := (judged_of_mem verdict).of_rename
  obtain ⟨f, among, same⟩ := List.mem_map.mp member
  have gone := spelled_of_taken run single (of_mem_freeFormers free).2.1 ⟨_, renamed, rfl⟩
  have here := (of_mem_freeFormers among).1
  rw [same, spelled_eq_nil_iff.mp gone] at here
  cases here

/-- Then it is ambiguous again. -/
theorem verdictAlone_of_ambiguous (distinct : d.DistinctLowerNames)
    (single : (live.map fun c => Text.lower c.name).Nodup) {c : Column} {formers : List LiveColumn}
    (member : (c, .ambiguous formers) ∈ tableVerdicts dialect policy d live)
    (spared : ∀ r ∈ (tableVerdicts dialect policy d live).filterMap renamed?,
      r.1 ∉ formers.map LiveColumn.name) :
    ∃ formers', verdictAlone dialect policy d after c = .ambiguous formers' ∧
      formers'.map LiveColumn.name = formers.map LiveColumn.name := by
  have names := names_freeFormers_after run single member spared
  have absent : liveColumn? after (Text.lower c.name) = none :=
    spelled_eq_nil_iff.mp (spelled_of_ambiguous run distinct member)
  have several : 2 ≤ (freeFormers d after [] c).length := by
    have lengths := congrArg List.length names
    rw [List.length_map, List.length_map] at lengths
    rw [lengths]
    exact (of_ambiguous member).2.1
  refine ⟨freeFormers d after [] c, ?_, names⟩
  rw [verdictAlone, absent]
  exact missingVerdict_eq_ambiguous_iff.mpr ⟨rfl, several⟩

end

/-- The verdict on a column that is there does not rename it. -/
theorem verdictAlone_of_present {c : Column} (present : hasColumn live c.name = true)
    (former : LiveColumn) : verdictAlone dialect policy d live c ≠ .rename former := by
  obtain ⟨e, found⟩ := Option.isSome_iff_exists.mp present
  rw [verdictAlone, found]
  exact existingVerdict_ne_rename dialect policy c e former

/-- If every verdict was clear or ambiguous, and no former column of an ambiguous column is renamed,
then what was ambiguous is so again, and nothing else is renamed. -/
theorem tableVerdicts_after {after : List LiveColumn} (distinct : d.DistinctLowerNames)
    (single : (live.map fun c => Text.lower c.name).Nodup)
    (run : (verdictSteps d (tableVerdicts dialect policy d live)).foldlM
      (fun cs s => s.onColumns? dialect cs) live = some after)
    (done : VerdictsDone (tableVerdicts dialect policy d live) live after)
    (resolved : ∀ c v, (c, v) ∈ tableVerdicts dialect policy d live → v ≠ .unresolved)
    (spared : ∀ c formers, (c, .ambiguous formers) ∈ tableVerdicts dialect policy d live →
      ∀ r ∈ (tableVerdicts dialect policy d live).filterMap renamed?,
      r.1 ∉ formers.map LiveColumn.name) :
    (∀ c formers, (c, .ambiguous formers) ∈ tableVerdicts dialect policy d live →
      ∃ formers', (c, .ambiguous formers') ∈ tableVerdicts dialect policy d after ∧
        formers'.map LiveColumn.name = formers.map LiveColumn.name) ∧
    (tableVerdicts dialect policy d after).filterMap renamed? = [] := by
  have still : ∀ c ∈ d.columns, ∀ former, verdictAlone dialect policy d after c ≠
      .rename former := by
    intro c declared former
    obtain ⟨v, member⟩ := exists_verdict_iff.mpr declared
    by_cases ambiguous : ∃ formers, v = .ambiguous formers
    · obtain ⟨formers, rfl⟩ := ambiguous
      obtain ⟨formers', again, _⟩ :=
        verdictAlone_of_ambiguous run distinct single member (spared c formers member)
      rw [again]
      intro same
      cases same
    · have clear : ∀ formers, v ≠ .ambiguous formers :=
        fun formers same => ambiguous ⟨formers, same⟩
      exact verdictAlone_of_present (done.present c v member (resolved c v member) clear) former
  have alone : tableVerdicts dialect policy d after =
      d.orderedColumns.map fun c => (c, verdictAlone dialect policy d after c) :=
    columnVerdicts_of_still fun c ordered => still c (mem_orderedColumns.mp ordered)
  constructor
  · intro c formers member
    obtain ⟨formers', again, names⟩ :=
      verdictAlone_of_ambiguous run distinct single member (spared c formers member)
    have ordered : c ∈ d.orderedColumns :=
      mem_orderedColumns.mpr (exists_verdict_iff.mp ⟨_, member⟩)
    refine ⟨formers', ?_, names⟩
    rw [alone, ← again]
    exact List.mem_map.mpr ⟨c, ordered, rfl⟩
  · apply List.eq_nil_iff_forall_not_mem.mpr
    intro r renamed
    obtain ⟨c, former, member, _⟩ := mem_renamed.mp renamed
    rw [alone] at member
    obtain ⟨c', ordered, same⟩ := List.mem_map.mp member
    obtain ⟨rfl, verdict⟩ := Prod.mk.inj same
    exact still c' (mem_orderedColumns.mp ordered) former verdict

end

end Warehouse
