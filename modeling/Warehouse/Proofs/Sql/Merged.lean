/-
Module: Warehouse.Proofs.Sql.Merged
Purpose: A merge in closed form: the target rows with the values of their source row, then the
  source rows that match no target row. It leaves the keys of every row as they are, in whatever
  spelling the update columns repeat a key, and rows with keys remain rows with keys.
Trusted boundary: none
Main exports: merged, MatchesOnce, agree_mergedRow, exists_merged, of_mem_merged, keyed_merged
-/
import Warehouse.Proofs.Sql.Change

namespace Warehouse.Sql

variable {V : Type} [LinearOrder V]

/-! ### The closed form of a merge

What a merge leaves is told without running it: the rows of the target, with what they take over
from the source, and then the rows of the source that match none of them. -/

/-- The values of a row in those columns. -/
def takenOver (columns : List String) (s : Row V) : List (String × Option V) :=
  columns.map fun c => (c, s.get c)

/-- A row of the target with the values of the source row that agrees with it on the keys. -/
def mergedRow (keys columns : List String) (source : Table V) (t : Row V) : Row V :=
  match source.find? (t.agree keys) with
  | some s => t.assign (takenOver columns s)
  | none => t

/-- The source rows that agree with no row of the target on the keys. -/
def unmatched (keys : List String) (target source : Table V) : Table V :=
  source.filter fun s => ! target.any fun t => t.agree keys s

/-- The target after a merge. -/
def merged (keys updates inserts : List String) (target source : Table V) : Table V :=
  target.map (mergedRow keys updates source) ++
    (unmatched keys target source).map fun s => Row.ofPairs (takenOver inserts s)

/-- No row of the target agrees with two rows of the source on the keys. -/
def MatchesOnce (keys : List String) (target source : Table V) : Prop :=
  ∀ t ∈ target, source.Pairwise fun s s' => ¬ (t.agree keys s = true ∧ t.agree keys s' = true)

/-- Source rows that match the same target row are the same row. -/
theorem MatchesOnce.eq {keys : List String} {target source : Table V}
    (once : MatchesOnce keys target source) {t s s' : Row V} (ht : t ∈ target) (hs : s ∈ source)
    (hs' : s' ∈ source) (left : t.agree keys s = true) (right : t.agree keys s' = true) :
    s = s' := by
  by_contra ne
  have : Std.Symm fun a b : Row V => ¬ (t.agree keys a = true ∧ t.agree keys b = true) :=
    ⟨fun _ _ h both => h both.symm⟩
  exact (once t ht).forall hs hs' ne ⟨left, right⟩

/-- Source rows with keys do not match twice. -/
theorem Keyed.matchesOnce {keys : List String} {source : Table V} (rows : Keyed keys source)
    (target : Table V) : MatchesOnce keys target source := by
  refine fun t _ => (rows.single t).imp fun {s s'} single both => single ?_
  rwa [Row.agree_comm keys s, Row.agree_comm keys s']

/-- A merge leaves the keys of a row as they are: an update column that is a key gets the value that
it has. -/
theorem get_mergedRow_of_mem_keys {keys columns : List String} {source : Table V} {t : Row V}
    {k : String} (member : k ∈ keys) : (mergedRow keys columns source t).get k = t.get k := by
  unfold mergedRow
  split
  next s found =>
    have agrees : t.agree keys s = true := List.find?_some found
    by_cases repeated : ∃ c ∈ columns, Text.sameIgnoringAsciiCase c k = true
    · apply Row.get_assign_of_mem
      · simpa [takenOver] using repeated
      · intro p assigned same
        obtain ⟨c, _, rfl⟩ := List.mem_map.mp assigned
        rw [s.get_congr same, Row.get_eq_of_agree agrees member]
    · apply Row.get_assign_of_notMem
      intro p assigned
      obtain ⟨c, hc, rfl⟩ := List.mem_map.mp assigned
      by_contra same
      exact repeated ⟨c, hc, by simpa using same⟩
  next => rfl

/-- After a merge a row agrees with the same source rows as before. -/
theorem agree_mergedRow (keys columns : List String) (source : Table V) (t s : Row V) :
    (mergedRow keys columns source t).agree keys s = t.agree keys s :=
  Row.agree_congr (fun _ member => get_mergedRow_of_mem_keys member) fun _ _ => rfl

/-- A merge changes no key, so the same source rows are unmatched after it. -/
theorem unmatched_map_mergedRow (keys columns : List String) (target source : Table V) :
    unmatched keys (target.map (mergedRow keys columns source)) source =
      unmatched keys target source := by
  simp [unmatched, agree_mergedRow, Function.comp_def]

/-- A merge that takes over no column leaves a target row as it is. -/
theorem mergedRow_nil (keys : List String) (source : Table V) : mergedRow keys [] source = id := by
  funext t
  unfold mergedRow
  split <;> rfl

/-! ### Rows after a merge

These lemmas say which rows are there after a merge, in both directions, and that the keys stay
distinct. -/

omit [LinearOrder V] in
/-- A source row that is inserted keeps its values in the inserted columns. -/
theorem get_ofPairs_takenOver {columns : List String} (s : Row V) {column : String}
    (inserted : ∃ c ∈ columns, Text.sameIgnoringAsciiCase c column = true) :
    (Row.ofPairs (takenOver columns s)).get column = s.get column :=
  Row.get_ofPairs_map inserted fun _ _ same => s.get_congr same

/-- A source row agrees on the keys with a row of the target after the merge, which has its values
in the columns that are both updated and inserted. -/
theorem exists_merged {keys inserts : List String} (updates : List String) {target source : Table V}
    (once : MatchesOnce keys target source) (rows : Keyed keys source)
    (keyed : ∀ k ∈ keys, ∃ c ∈ inserts, Text.sameIgnoringAsciiCase c k = true) {s : Row V}
    (member : s ∈ source) :
    ∃ r ∈ merged keys updates inserts target source, r.agree keys s = true ∧
      ∀ c ∈ updates, c ∈ inserts → r.get c = s.get c := by
  by_cases matched : (target.any fun t => t.agree keys s) = true
  · obtain ⟨t, ht, agrees⟩ := List.any_eq_true.mp matched
    obtain ⟨s', found⟩ : ∃ s', source.find? (t.agree keys) = some s' := by
      rw [← Option.isSome_iff_exists, List.find?_isSome]
      exact ⟨s, member, agrees⟩
    obtain rfl : s' = s :=
      once.eq ht (List.mem_of_find?_eq_some found) member (List.find?_some found) agrees
    refine ⟨mergedRow keys updates source t,
      List.mem_append_left _ (List.mem_map_of_mem ht), ?_, ?_⟩
    · rwa [agree_mergedRow]
    · intro c updated _
      rw [mergedRow, found]
      refine Row.get_assign_of_mem t ⟨_, List.mem_map_of_mem updated, ?_⟩ fun p assigned same => ?_
      · simp [Text.sameIgnoringAsciiCase]
      · obtain ⟨c', _, rfl⟩ := List.mem_map.mp assigned
        exact s'.get_congr same
  · refine ⟨.ofPairs (takenOver inserts s), List.mem_append_right _ (List.mem_map_of_mem
      (List.mem_filter.mpr ⟨member, by simpa using matched⟩)), ?_, ?_⟩
    · rw [Row.agree_congr (fun k key => get_ofPairs_takenOver s (keyed k key)) fun _ _ => rfl]
      exact Row.agree_self (rows.there s member)
    · exact fun c _ inserted =>
        get_ofPairs_takenOver s ⟨c, inserted, by simp [Text.sameIgnoringAsciiCase]⟩

/-- A row of the target after a merge was there before, or agrees with a source row on the keys. -/
theorem of_mem_merged {keys updates inserts : List String} {target source : Table V}
    (rows : Keyed keys source)
    (keyed : ∀ k ∈ keys, ∃ c ∈ inserts, Text.sameIgnoringAsciiCase c k = true) {r : Row V}
    (member : r ∈ merged keys updates inserts target source) :
    r ∈ target ∨ ∃ s ∈ source, r.agree keys s = true := by
  rcases List.mem_append.mp member with before | inserted
  · obtain ⟨t, ht, rfl⟩ := List.mem_map.mp before
    cases found : source.find? (t.agree keys) with
    | none => exact .inl (by rwa [mergedRow, found])
    | some s =>
      refine .inr ⟨s, List.mem_of_find?_eq_some found, ?_⟩
      rw [agree_mergedRow]
      exact List.find?_some found
  · obtain ⟨s, unmatched, rfl⟩ := List.mem_map.mp inserted
    have hs := (List.mem_filter.mp unmatched).1
    refine .inr ⟨s, hs, ?_⟩
    rw [Row.agree_congr (fun k key => get_ofPairs_takenOver s (keyed k key)) fun _ _ => rfl]
    exact Row.agree_self (rows.there s hs)

/-- A merge leaves a row of the target as it is that agrees with no source row. -/
theorem mem_merged_of_unmatched {keys updates inserts : List String} {target source : Table V}
    {t : Row V} (member : t ∈ target) (none_agrees : ∀ s ∈ source, t.agree keys s = false) :
    t ∈ merged keys updates inserts target source := by
  refine List.mem_append_left _ (List.mem_map.mpr ⟨t, member, ?_⟩)
  rw [mergedRow, List.find?_eq_none.mpr (by simpa using none_agrees)]

/-- A merge of rows with keys into rows with keys leaves rows with keys. -/
theorem keyed_merged {keys inserts : List String} (updates : List String) {target source : Table V}
    (before : Keyed keys target) (rows : Keyed keys source)
    (keyed : ∀ k ∈ keys, ∃ c ∈ inserts, Text.sameIgnoringAsciiCase c k = true) :
    Keyed keys (merged keys updates inserts target source) where
  there r member k key := by
    rcases List.mem_append.mp member with kept | inserted
    · obtain ⟨t, ht, rfl⟩ := List.mem_map.mp kept
      rw [get_mergedRow_of_mem_keys key]
      exact before.there t ht k key
    · obtain ⟨s, unmatched, rfl⟩ := List.mem_map.mp inserted
      rw [get_ofPairs_takenOver s (keyed k key)]
      exact rows.there s (List.mem_filter.mp unmatched).1 k key
  unique := by
    have inserted (s r : Row V) :
        r.agree keys (Row.ofPairs (takenOver inserts s)) = r.agree keys s :=
      Row.agree_congr (fun _ _ => rfl) fun k key => get_ofPairs_takenOver s (keyed k key)
    refine List.pairwise_append.mpr ⟨?_, ?_, ?_⟩
    · rw [List.pairwise_map]
      refine before.unique.imp fun {t t'} differ => ?_
      rwa [agree_mergedRow, Row.agree_comm, agree_mergedRow, Row.agree_comm]
    · rw [List.pairwise_map]
      refine (rows.unique.filter _).imp fun {s s'} differ => ?_
      rwa [inserted, Row.agree_comm, inserted, Row.agree_comm]
    · intro r kept r' added
      obtain ⟨t, ht, rfl⟩ := List.mem_map.mp kept
      obtain ⟨s, unmatched, rfl⟩ := List.mem_map.mp added
      have differ := (List.mem_filter.mp unmatched).2
      rw [inserted, agree_mergedRow]
      simpa using (List.any_eq_false.mp (by simpa using differ)) t ht

end Warehouse.Sql
