/-
Module: Warehouse.Proofs.Graph.Ascending
Purpose: A set as an ascending list has the elements that were put into it, each once. Every element
  is less than those behind it, and an element is put where that stays so.
Trusted boundary: none
Main exports: Ascending, mem_ascending, ascending_spec, Ascending.nodup, Ascending.eq_of_mem_iff,
  DatasetKey.le_trans, DatasetKey.le_total, DatasetKey.le_antisymm, DatasetKey.ascending_sort
-/
import Mathlib.Data.List.Nodup
import Warehouse.Catalog.Key
import Warehouse.Graph.Ascending

namespace Warehouse

/-- Every element is less than those behind it. -/
def Ascending {α : Type} [Ord α] (xs : List α) : Prop := xs.Pairwise fun a b => compare a b = .lt

section

variable {α : Type} [Ord α] [Std.TransOrd α] [Std.LawfulEqOrd α] {x : α} {xs : List α}

omit [Std.TransOrd α] in
/-- What is inserted is there, and what was there before. -/
theorem mem_insertAscending {y : α} : y ∈ insertAscending x xs ↔ y = x ∨ y ∈ xs := by
  induction xs with
  | nil => simp [insertAscending]
  | cons z rest ih =>
    rw [insertAscending]
    split
    · rw [List.mem_cons]
    · next same =>
      obtain rfl : x = z := Std.LawfulEqOrd.eq_of_compare same
      rw [List.mem_cons]
      exact ⟨.inr, fun h => h.elim .inl id⟩
    · rw [List.mem_cons, List.mem_cons, ih, or_left_comm]

/-- An ascending list ascends after an insertion. -/
theorem Ascending.insert (ascends : Ascending xs) : Ascending (insertAscending x xs) := by
  induction xs with
  | nil => exact List.pairwise_singleton _ x
  | cons z rest ih =>
    obtain ⟨least, ascends⟩ := List.pairwise_cons.mp ascends
    rw [insertAscending]
    split
    · next less =>
      refine List.pairwise_cons.mpr ⟨fun y member => ?_, List.pairwise_cons.mpr ⟨least, ascends⟩⟩
      rcases List.mem_cons.mp member with rfl | later
      · exact less
      · exact Std.TransCmp.lt_trans less (least y later)
    · exact List.pairwise_cons.mpr ⟨least, ascends⟩
    · next more =>
      refine List.pairwise_cons.mpr ⟨fun y member => ?_, ih ascends⟩
      rcases mem_insertAscending.mp member with rfl | later
      · exact Std.OrientedCmp.gt_iff_lt.mp more
      · exact least y later

omit [Std.TransOrd α] in
/-- What is inserted one by one is there, and what was there before. -/
theorem mem_insertAllAscending {y : α} {more : List α} :
    y ∈ insertAllAscending xs more ↔ y ∈ more ∨ y ∈ xs := by
  induction more with
  | nil => simp [insertAllAscending]
  | cons z rest ih =>
    have first : insertAllAscending xs (z :: rest) =
      insertAscending z (insertAllAscending xs rest) := rfl
    rw [first, mem_insertAscending, ih, List.mem_cons, or_assoc]

/-- An ascending list ascends after any number of insertions. -/
theorem Ascending.insertAll (ascends : Ascending xs) (more : List α) :
    Ascending (insertAllAscending xs more) := by
  induction more with
  | nil => exact ascends
  | cons z rest ih => exact ih.insert

omit [Std.TransOrd α] in
/-- To put a list in order keeps its members. -/
theorem mem_ascending {y : α} : y ∈ ascending xs ↔ y ∈ xs := by
  rw [ascending, mem_insertAllAscending]
  exact or_iff_left List.not_mem_nil

/-- A list that is put in order ascends. -/
theorem ascending_spec (xs : List α) : Ascending (ascending xs) :=
  Ascending.insertAll List.Pairwise.nil xs

omit [Std.LawfulEqOrd α] in
/-- An ascending list has nothing twice. -/
theorem Ascending.nodup (ascends : Ascending xs) : xs.Nodup := by
  refine ascends.imp fun {a b} less same => ?_
  have equal : compare b b = .eq := Std.ReflCmp.compare_self
  rw [same, equal] at less
  cases less

omit [Std.LawfulEqOrd α] in
/-- Ascending lists with the same elements are the same list. -/
theorem Ascending.eq_of_mem_iff {ys : List α} (ascends : Ascending xs) (ascends' : Ascending ys)
    (same : ∀ x, x ∈ xs ↔ x ∈ ys) : xs = ys := by
  have perm : xs.Perm ys := (List.perm_ext_iff_of_nodup ascends.nodup ascends'.nodup).mpr same
  refine perm.eq_of_pairwise (fun a b _ _ less more => ?_) ascends ascends'
  rw [Std.OrientedCmp.gt_of_lt less] at more
  cases more

end

/-! ### Keys

Keys are compared by their schema and then by their name. The order is that of their characters, and
it is total: of two different keys one comes before the other. -/

namespace DatasetKey

private theorem compare_eq (a b : DatasetKey) :
    Ord.compare a b = (Ord.compare a.schema b.schema).then (Ord.compare a.name b.name) := rfl

instance : Std.LawfulEqOrd DatasetKey where
  compare_self := by
    intro a
    rw [compare_eq, Ordering.then_eq_eq]
    exact ⟨Std.ReflCmp.compare_self, Std.ReflCmp.compare_self⟩
  eq_of_compare := by
    intro a b same
    rw [compare_eq, Ordering.then_eq_eq] at same
    obtain ⟨schema, name⟩ := a
    obtain rfl := Std.LawfulEqOrd.eq_of_compare same.1
    obtain rfl := Std.LawfulEqOrd.eq_of_compare same.2
    rfl

instance : Std.TransOrd DatasetKey :=
  inferInstanceAs
    (Std.TransCmp (compareLex (compareOn DatasetKey.schema) (compareOn DatasetKey.name)))

/-- What comes before a key comes before all that come after the key. -/
theorem le_trans (a b c : DatasetKey) (ab : a.le b = true) (bc : b.le c = true) :
    a.le c = true := by
  have first : (Ord.compare a b).isLE = true := ab
  have second : (Ord.compare b c).isLE = true := bc
  have both : (Ord.compare a c).isLE = true := Std.TransCmp.isLE_trans first second
  exact both

/-- Of two keys one comes before the other. -/
theorem le_total (a b : DatasetKey) : (a.le b || b.le a) = true := by
  rw [Bool.or_eq_true]
  refine or_iff_not_imp_left.mpr fun more => ?_
  cases order : Ord.compare a b with
  | lt => exact absurd (congrArg Ordering.isLE order) more
  | eq => exact absurd (congrArg Ordering.isLE order) more
  | gt => exact congrArg Ordering.isLE (Std.OrientedCmp.gt_iff_lt.mp order)

/-- Keys of which each comes before the other are the same. -/
theorem le_antisymm {a b : DatasetKey} (ab : a.le b = true) (ba : b.le a = true) : a = b := by
  have first : (Ord.compare a b).isLE = true := ab
  have second : (Ord.compare b a).isLE = true := ba
  exact Std.LawfulEqOrd.eq_of_compare (Std.OrientedCmp.isLE_antisymm first second)

/-- Keys of which no two are the same ascend when they are sorted. -/
theorem ascending_sort {keys : List DatasetKey} (distinct : keys.Nodup) :
    Ascending (sort keys) := by
  have apart : (sort keys).Nodup := (List.mergeSort_perm keys le).nodup_iff.mpr distinct
  refine ((List.pairwise_mergeSort le_trans le_total keys).and apart).imp fun {a b} before => ?_
  rcases Ordering.isLE_iff_eq_lt_or_eq_eq.mp before.1 with less | same
  · exact less
  · exact absurd (Std.LawfulEqOrd.eq_of_compare same) before.2

end DatasetKey

end Warehouse
