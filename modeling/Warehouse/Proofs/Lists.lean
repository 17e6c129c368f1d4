/-
Module: Warehouse.Proofs.Lists
Purpose: Facts about lists that several proofs share: element-wise relations that are functions,
  values that are all there, separators, rows of which only one satisfies a condition, entries under
  keys, places in a list, and runs at its front.
Trusted boundary: none
Main exports: forall₂_iff_eq_map, forall₂_comp, forall₂_map_of_length_eq, forall₂_and_iff,
  exists_of_mem_right, eq_of_map_eq_map, exists_map_of_forall_mem, map_filterMap_sublist,
  mapM_id_map_some, mem_of_mem_intersperse, filter_eq_singleton, filter_flatMap_eq,
  lookup_eq_some_iff_mem, mem_before_iff, eq_iff_idxOf, takeWhile_append_of_ends,
  dropWhile_append_of_ends, append_inj_of_ends
-/
import Mathlib.Data.List.Forall2
import Mathlib.Data.List.Nodup

namespace Warehouse

/-- A relation that is a function on the elements of a list relates it to the list of their
images. -/
theorem forall₂_iff_eq_map {α β : Type} {R : α → β → Prop} {f : α → β} {xs : List α} {ys : List β}
    (functional : ∀ x ∈ xs, ∀ y, R x y ↔ y = f x) : List.Forall₂ R xs ys ↔ ys = xs.map f := by
  induction xs generalizing ys with
  | nil => simp
  | cons x xs ih =>
    rw [List.forall₂_cons_left_iff, List.map_cons]
    constructor
    · rintro ⟨y, ys', head, tail, rfl⟩
      rw [(functional x (by simp) y).mp head, (ih fun x' h => functional x' (by simp [h])).mp tail]
    · rintro rfl
      exact ⟨f x, xs.map f, (functional x (by simp) _).mpr rfl,
        (ih fun x' h => functional x' (by simp [h])).mpr rfl, rfl⟩

/-- Lists that are related element by element through a third one. -/
theorem forall₂_comp {α β γ : Type} {R : α → β → Prop} {S : β → γ → Prop} {xs : List α}
    {ys : List β} {zs : List γ} (first : List.Forall₂ R xs ys) (second : List.Forall₂ S ys zs) :
    List.Forall₂ (fun x z => ∃ y, R x y ∧ S y z) xs zs := by
  induction first generalizing zs with
  | nil =>
    cases second
    exact .nil
  | cons head _ ih =>
    cases second with
    | cons head' tail' => exact .cons ⟨_, head, head'⟩ (ih tail')

/-- An element on the right is related to one on the left. -/
theorem exists_of_mem_right {α β : Type} {R : α → β → Prop} {xs : List α} {ys : List β}
    (related : List.Forall₂ R xs ys) {y : β} (member : y ∈ ys) : ∃ x ∈ xs, R x y := by
  induction related with
  | nil => cases member
  | cons head _ ih =>
    rcases List.mem_cons.mp member with rfl | later
    · exact ⟨_, List.mem_cons_self, head⟩
    · obtain ⟨x, earlier, rest⟩ := ih later
      exact ⟨x, List.mem_cons_of_mem _ earlier, rest⟩

/-- What holds of any two images holds element by element of lists of one length. -/
theorem forall₂_map_of_length_eq {α β γ δ : Type} {R : γ → δ → Prop} {f : α → γ} {g : β → δ}
    {xs : List α} {ys : List β} (all : ∀ x y, R (f x) (g y)) (same : xs.length = ys.length) :
    List.Forall₂ R (xs.map f) (ys.map g) := by
  rw [List.forall₂_map_left_iff, List.forall₂_map_right_iff, List.forall₂_iff_get]
  exact ⟨same, fun _ _ _ => all _ _⟩

/-- Two relations that both hold element by element. -/
theorem forall₂_and_iff {α β : Type} {R S : α → β → Prop} {xs : List α} {ys : List β} :
    List.Forall₂ (fun x y => R x y ∧ S x y) xs ys ↔
      List.Forall₂ R xs ys ∧ List.Forall₂ S xs ys := by
  constructor
  · intro both
    exact ⟨both.imp fun _ _ h => h.1, both.imp fun _ _ h => h.2⟩
  · rintro ⟨first, second⟩
    induction first with
    | nil => exact .nil
    | cons head _ ih =>
      cases second with
      | cons head' tail' => exact .cons ⟨head, head'⟩ (ih tail')

/-- A relation may be replaced by one that follows from it for the elements of the lists. -/
theorem forall₂_imp_of_mem {α β : Type} {R S : α → β → Prop} {xs : List α} {ys : List β}
    (related : List.Forall₂ R xs ys) (follows : ∀ x ∈ xs, ∀ y ∈ ys, R x y → S x y) :
    List.Forall₂ S xs ys := by
  induction related with
  | nil => exact .nil
  | cons head _ ih =>
    refine .cons (follows _ List.mem_cons_self _ List.mem_cons_self head) (ih ?_)
    exact fun x later y later' =>
      follows x (List.mem_cons_of_mem _ later) y (List.mem_cons_of_mem _ later')

/-- Lists with the same images are the same if no two of their elements have one image. -/
theorem eq_of_map_eq_map {α β : Type} {f : α → β} {xs ys : List α}
    (apart : ∀ x ∈ xs, ∀ y ∈ ys, f x = f y → x = y) (same : xs.map f = ys.map f) : xs = ys := by
  induction xs generalizing ys with
  | nil => exact (List.map_eq_nil_iff.mp same.symm).symm
  | cons x xs ih =>
    cases ys with
    | nil => cases same
    | cons y ys =>
      obtain ⟨head, tail⟩ := List.cons.inj same
      rw [apart x List.mem_cons_self y List.mem_cons_self head]
      refine congrArg (y :: ·) (ih (fun x' later y' later' => ?_) tail)
      exact apart x' (List.mem_cons_of_mem _ later) y' (List.mem_cons_of_mem _ later')

/-- Elements that are all images are the images of a list. -/
theorem exists_map_of_forall_mem {α β : Type} {f : α → β} {ys : List β}
    (images : ∀ y ∈ ys, ∃ x, y = f x) : ∃ xs : List α, ys = xs.map f := by
  induction ys with
  | nil => exact ⟨[], rfl⟩
  | cons y ys ih =>
    obtain ⟨x, rfl⟩ := images y List.mem_cons_self
    obtain ⟨xs, rfl⟩ := ih fun y' later => images y' (List.mem_cons_of_mem _ later)
    exact ⟨x :: xs, rfl⟩

/-- What is read from chosen images stands in the order in which it is read from the elements. -/
theorem map_filterMap_sublist {α β γ : Type} {f : α → Option β} {g : β → γ} {g' : α → γ}
    (reads : ∀ x y, f x = some y → g y = g' x) (xs : List α) :
    List.Sublist ((xs.filterMap f).map g) (xs.map g') := by
  induction xs with
  | nil => exact .slnil
  | cons x xs ih =>
    cases chosen : f x with
    | none =>
      rw [List.filterMap_cons_none chosen]
      exact ih.cons _
    | some y =>
      rw [List.filterMap_cons_some chosen, List.map_cons, List.map_cons, reads x y chosen]
      exact ih.cons_cons _

/-- Values that are all there are there together. -/
theorem mapM_id_map_some {α : Type} (xs : List α) : (xs.map some).mapM id = some xs := by
  induction xs with
  | nil => rfl
  | cons x xs ih => simp [List.mapM_cons, ih]

/-- What stands in an interspersed list is a separator or a member. -/
theorem mem_of_mem_intersperse {α : Type} {x separator : α} {xs : List α}
    (member : x ∈ xs.intersperse separator) : x = separator ∨ x ∈ xs := by
  induction xs with
  | nil => cases member
  | cons y ys ih =>
    cases ys with
    | nil => exact .inr member
    | cons z zs =>
      rw [List.intersperse_cons_cons, List.mem_cons, List.mem_cons] at member
      rcases member with rfl | rfl | later
      · exact .inr (by simp)
      · exact .inl rfl
      · exact (ih later).imp_right (List.mem_cons_of_mem _)

/-- An element that satisfies a condition is the only one if no two elements do. -/
theorem filter_eq_singleton {α : Type} {p : α → Bool} {xs : List α} {x : α}
    (single : xs.Pairwise fun a b => ¬ (p a = true ∧ p b = true)) (member : x ∈ xs)
    (holds : p x = true) :
    xs.filter p = [x] := by
  induction xs with
  | nil => cases member
  | cons y ys ih =>
    rw [List.pairwise_cons] at single
    by_cases head : p y = true
    · have rest : ys.filter p = [] :=
        List.filter_eq_nil_iff.mpr fun z hz hold => single.1 z hz ⟨head, hold⟩
      rcases List.mem_cons.mp member with rfl | later
      · rw [List.filter_cons_of_pos head, rest]
      · exact absurd ⟨head, holds⟩ (single.1 x later)
    · rw [List.filter_cons_of_neg head]
      rcases List.mem_cons.mp member with rfl | later
      · exact absurd holds head
      · exact ih single.2 later

/-- In a concatenation of blocks, what carries the key of an element is the block of that element,
if the keys are distinct. -/
theorem filter_flatMap_eq {α β κ : Type} [DecidableEq κ] {xs : List α} {block : α → List β}
    {key : α → κ} {tag : β → κ} (tagged : ∀ x ∈ xs, ∀ y ∈ block x, tag y = key x)
    (distinct : (xs.map key).Nodup) {x : α} (member : x ∈ xs) :
    (xs.flatMap block).filter (fun y => tag y = key x) = block x := by
  induction xs with
  | nil => cases member
  | cons first xs ih =>
    rw [List.map_cons, List.nodup_cons] at distinct
    have tagged' := List.forall_mem_cons.mp tagged
    rw [List.flatMap_cons, List.filter_append]
    rcases List.mem_cons.mp member with rfl | later
    · have whole : (block x).filter (fun y => tag y = key x) = block x :=
        List.filter_eq_self.mpr fun y among => by simpa using tagged'.1 y among
      have others : (xs.flatMap block).filter (fun y => tag y = key x) = [] := by
        rw [List.filter_eq_nil_iff]
        intro y among same
        obtain ⟨x', member', among⟩ := List.mem_flatMap.mp among
        refine distinct.1 (List.mem_map.mpr ⟨x', member', ?_⟩)
        rw [← tagged'.2 x' member' y among]
        simpa using same
      rw [whole, others, List.append_nil]
    · have none : (block first).filter (fun y => tag y = key x) = [] := by
        rw [List.filter_eq_nil_iff]
        intro y among same
        refine distinct.1 (List.mem_map.mpr ⟨x, later, ?_⟩)
        rw [← tagged'.1 y among]
        simpa [eq_comm] using same
      rw [none, List.nil_append, ih tagged'.2 distinct.2 later]

/-- With distinct keys, an entry is found by its key. -/
theorem lookup_eq_some_iff_mem {α β : Type} [BEq α] [LawfulBEq α] {entries : List (α × β)}
    (distinct : (entries.map Prod.fst).Nodup) {key : α} {value : β} :
    entries.lookup key = some value ↔ (key, value) ∈ entries := by
  induction entries with
  | nil => simp
  | cons first rest ih =>
    obtain ⟨key', value'⟩ := first
    obtain ⟨fresh, distinct⟩ := List.nodup_cons.mp distinct
    rw [List.lookup_cons, List.mem_cons]
    by_cases same : key = key'
    · subst same
      have absent : (key, value) ∉ rest := fun found => fresh (List.mem_map.mpr ⟨_, found, rfl⟩)
      simp [absent, eq_comm]
    · have differ : (key == key') = false := beq_eq_false_iff_ne.mpr same
      simp [differ, same, ih distinct]

/-! ### Places -/

/-- What stands in front of an element is what comes before it. -/
theorem mem_before_iff {α : Type} {before after : List α} {x y : α}
    (distinct : (before ++ y :: after).Nodup) :
    x ∈ before ↔ [x, y].Sublist (before ++ y :: after) := by
  constructor
  · intro earlier
    exact (List.singleton_sublist.mpr earlier).append
      (List.cons_sublist_cons.mpr (List.nil_sublist after))
  · intro inOrder
    induction before with
    | nil =>
      -- Behind the first place of `y` there is no other.
      have later : [y].Sublist after := by
        cases inOrder with
        | cons _ rest => exact (List.sublist_cons_self x [y]).trans rest
        | cons_cons _ rest => exact rest
      exact absurd (List.singleton_sublist.mp later) (List.nodup_cons.mp distinct).1
    | cons z before ih =>
      cases inOrder with
      | cons _ rest => exact List.mem_cons_of_mem _ (ih (List.nodup_cons.mp distinct).2 rest)
      | cons_cons _ rest => exact List.mem_cons_self

/-- Lists of the same elements are equal if each element has its place in both. -/
theorem eq_iff_idxOf {α : Type} [DecidableEq α] {xs ys : List α} (distinct : xs.Nodup)
    (perm : xs.Perm ys) : xs = ys ↔ ∀ x ∈ xs, xs.idxOf x = ys.idxOf x := by
  refine ⟨fun same x _ => by rw [same], fun places => ?_⟩
  refine List.ext_getElem perm.length_eq fun i bound bound' => ?_
  have place := places _ (List.getElem_mem bound)
  rw [distinct.idxOf_getElem i bound] at place
  have there := List.getElem_idxOf (List.idxOf_lt_length_of_mem
    (perm.mem_iff.mp (List.getElem_mem bound)))
  rw [← there]
  simp only [← place]

section

variable {α : Type} {p : α → Bool} {run rest : List α}

/-- A run at the front of a list ends where the first element of another kind stands. -/
theorem takeWhile_append_of_ends (run_all : ∀ x ∈ run, p x = true)
    (ends : ∀ x ∈ rest.head?, p x = false) : (run ++ rest).takeWhile p = run := by
  have stops : rest.takeWhile p = [] := by
    cases rest with
    | nil => rfl
    | cons c rest => exact List.takeWhile_cons_of_neg (by simp [ends c rfl])
  rw [List.takeWhile_append_of_pos run_all, stops, List.append_nil]

/-- Behind a run at the front of a list is what follows it. -/
theorem dropWhile_append_of_ends (run_all : ∀ x ∈ run, p x = true)
    (ends : ∀ x ∈ rest.head?, p x = false) : (run ++ rest).dropWhile p = rest := by
  rw [List.dropWhile_append_of_pos run_all]
  cases rest with
  | nil => rfl
  | cons c rest => exact List.dropWhile_cons_of_neg (by simp [ends c rfl])

/-- What is left behind a run at the front of a list does not go on with it. -/
theorem head?_dropWhile_eq_false (p : α → Bool) (xs : List α) :
    ∀ x ∈ (xs.dropWhile p).head?, p x = false := by
  intro x first
  have kept := List.head?_dropWhile_not p xs
  rw [first] at kept
  simpa using kept

/-- Two runs at the front of one list are the same if neither goes on behind the other. -/
theorem append_inj_of_ends {q : α → Bool} {run' rest' : List α} (same : run ++ rest = run' ++ rest')
    (run_all : ∀ x ∈ run, p x = true) (ends' : ∀ x ∈ rest'.head?, p x = false)
    (run_all' : ∀ x ∈ run', q x = true) (ends : ∀ x ∈ rest.head?, q x = false) :
    run = run' ∧ rest = rest' := by
  rcases List.append_eq_append_iff.mp same with ⟨more, longer, behind⟩ | ⟨more, longer, behind⟩
  · cases more with
    | nil => exact ⟨by rw [longer, List.append_nil], behind⟩
    | cons x more =>
      have within := run_all' x (by rw [longer]; simp)
      rw [ends x (by rw [behind]; rfl)] at within
      cases within
  · cases more with
    | nil => exact ⟨by rw [longer, List.append_nil], behind.symm⟩
    | cons x more =>
      have within := run_all x (by rw [longer]; simp)
      rw [ends' x (by rw [behind]; rfl)] at within
      cases within

end

end Warehouse
