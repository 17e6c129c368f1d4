/-
Module: Warehouse.Proofs.Results
Purpose: When computations that may fail succeed, and where they fail: one after the other, under
  another kind of error, and over a list; and when two of them end alike.
Trusted boundary: none
Main exports: bind_eq_ok_iff, bind_eq_error_iff, map_eq_ok_iff, map_eq_error_iff,
  mapError_eq_ok_iff, mapM_eq_ok_iff, map_eq_of_mapM_eq_ok, forall_of_mapM_eq_ok,
  exists_of_mapM_eq_ok, exists_mapM_eq_ok, exists_mapM_eq_ok_of_perm, mapM_zipWith,
  exists_of_mapM_eq_error, mapM_eq_error_iff, SameOutcome, WhenOk
-/
import Mathlib.Data.List.Perm.Basic

namespace Warehouse

variable {ε ε' α β γ α' β' : Type}

/-- A computation in two steps succeeds just if both steps do. -/
theorem bind_eq_ok_iff {x : Except ε α} {f : α → Except ε β} {b : β} :
    x >>= f = .ok b ↔ ∃ a, x = .ok a ∧ f a = .ok b := by
  cases x <;> simp [bind, Except.bind]

/-- It fails just if one of them does, the second on the result of the first. -/
theorem bind_eq_error_iff {x : Except ε α} {f : α → Except ε β} {e : ε} :
    x >>= f = .error e ↔ x = .error e ∨ ∃ a, x = .ok a ∧ f a = .error e := by
  cases x <;> simp [bind, Except.bind]

/-- A function on results does not touch failures, nor make any. -/
theorem map_eq_ok_iff {x : Except ε α} {f : α → β} {b : β} : x.map f = .ok b ↔
    ∃ a, x = .ok a ∧ f a = b := by
  cases x <;> simp [Except.map]

theorem map_eq_error_iff {x : Except ε α} {f : α → β} {e : ε} : x.map f = .error e ↔
    x = .error e := by
  cases x <;> simp [Except.map]

theorem mapError_eq_ok_iff {x : Except ε α} {f : ε → ε'} {a : α} :
    x.mapError f = .ok a ↔ x = .ok a := by
  cases x <;> simp [Except.mapError]

/-- A computation over a list succeeds with the results that it has for the elements. -/
theorem mapM_eq_ok_iff {f : α → Except ε β} {xs : List α} {ys : List β} :
    xs.mapM f = .ok ys ↔ List.Forall₂ (fun x y => f x = .ok y) xs ys := by
  induction xs generalizing ys with
  | nil => simp [pure, Except.pure, eq_comm]
  | cons x xs ih =>
    rw [List.mapM_cons, List.forall₂_cons_left_iff, bind_eq_ok_iff]
    constructor
    · rintro ⟨y, head, rest⟩
      obtain ⟨ys', tail, same⟩ := bind_eq_ok_iff.mp rest
      exact ⟨y, ys', head, ih.mp tail, (Except.ok.inj same).symm⟩
    · rintro ⟨y, ys', head, tail, rfl⟩
      exact ⟨y, head, bind_eq_ok_iff.mpr ⟨ys', ih.mpr tail, rfl⟩⟩

/-- What is read from the results can be read from the elements. -/
theorem map_eq_of_mapM_eq_ok {f : α → Except ε β} {xs : List α} {ys : List β} {g : β → γ}
    {g' : α → γ} (built : xs.mapM f = .ok ys) (reads : ∀ x ∈ xs, ∀ y, f x = .ok y → g y = g' x) :
    ys.map g = xs.map g' := by
  rw [mapM_eq_ok_iff] at built
  induction built with
  | nil => rfl
  | cons first _ ih =>
    rw [List.map_cons, List.map_cons, reads _ (by simp) _ first,
      ih fun x member => reads x (by simp [member])]

/-- What holds of every result that an element may have holds of all results. -/
theorem forall_of_mapM_eq_ok {f : α → Except ε β} {xs : List α} {ys : List β} {p : β → Prop}
    (built : xs.mapM f = .ok ys) (each : ∀ x ∈ xs, ∀ y, f x = .ok y → p y) : ∀ y ∈ ys, p y := by
  rw [mapM_eq_ok_iff] at built
  induction built with
  | nil => simp
  | cons first _ ih =>
    rw [List.forall_mem_cons]
    exact ⟨each _ (by simp) _ first, ih fun x member => each x (by simp [member])⟩

/-- If a computation over a list succeeds, it does so for each element. -/
theorem exists_of_mapM_eq_ok {f : α → Except ε β} {xs : List α} {ys : List β}
    (built : xs.mapM f = .ok ys) {x : α} (member : x ∈ xs) : ∃ y, f x = .ok y := by
  rw [mapM_eq_ok_iff] at built
  induction built with
  | nil => cases member
  | cons first _ ih =>
    rcases List.mem_cons.mp member with rfl | later
    · exact ⟨_, first⟩
    · exact ih later

/-- A computation over a list succeeds if it does on each member. -/
theorem exists_mapM_eq_ok (f : α → Except ε β) (xs : List α) (each : ∀ x ∈ xs, ∃ y, f x = .ok y) :
    ∃ ys, xs.mapM f = .ok ys := by
  induction xs with
  | nil => exact ⟨[], rfl⟩
  | cons x xs ih =>
    obtain ⟨y, first⟩ := each x (by simp)
    obtain ⟨ys, rest⟩ := ih fun x' member => each x' (by simp [member])
    exact ⟨y :: ys, by rw [List.mapM_cons, first, rest]; rfl⟩

/-- A computation over a list succeeds in any order of the elements, with the same results in
another order. -/
theorem exists_mapM_eq_ok_of_perm {f : α → Except ε β} {xs xs' : List α} {ys : List β}
    (perm : xs.Perm xs') (built : xs.mapM f = .ok ys) :
    ∃ ys', xs'.mapM f = .ok ys' ∧ ys.Perm ys' := by
  obtain ⟨ys', each, perm'⟩ := List.perm_comp_forall₂ perm.symm (mapM_eq_ok_iff.mp built)
  exact ⟨ys', mapM_eq_ok_iff.mpr each, perm'.symm⟩

/-- A computation over a list that puts each result beside its element does what the computation of
the results does. -/
theorem mapM_zipWith (f : α → Except ε β) (g : α → β → γ) (xs : List α) :
    (xs.mapM fun x => do return g x (← f x)) = (xs.mapM f).map (List.zipWith g xs) := by
  induction xs with
  | nil => rfl
  | cons x xs ih =>
    rw [List.mapM_cons, List.mapM_cons, ih]
    cases f x with
    | error e => rfl
    | ok y => cases xs.mapM f <;> rfl

/-- If a computation over a list fails, it does so at one of the elements. -/
theorem exists_of_mapM_eq_error {f : α → Except ε β} {xs : List α} {e : ε}
    (failed : xs.mapM f = .error e) : ∃ x ∈ xs, f x = .error e := by
  induction xs with
  | nil => cases failed
  | cons x xs ih =>
    rw [List.mapM_cons, bind_eq_error_iff] at failed
    rcases failed with first | ⟨y, _, rest⟩
    · exact ⟨x, List.mem_cons_self, first⟩
    · rcases bind_eq_error_iff.mp rest with later | ⟨ys, _, built⟩
      · obtain ⟨x', member, failed⟩ := ih later
        exact ⟨x', List.mem_cons_of_mem x member, failed⟩
      · cases built

/-- A computation over a list fails with what is wrong with the first element at which something
is. -/
theorem mapM_eq_error_iff {f : α → Except ε β} {fault? : α → Option ε}
    (faults : ∀ x e, f x = .error e ↔ fault? x = some e) {xs : List α} {e : ε} :
    xs.mapM f = .error e ↔ xs.findSome? fault? = some e := by
  induction xs with
  | nil => simp [pure, Except.pure]
  | cons x xs ih =>
    rw [List.mapM_cons, List.findSome?_cons]
    cases first : f x with
    | error e' =>
      rw [(faults x e').mp first]
      simp [bind, Except.bind]
    | ok y =>
      have sound : fault? x = none := by
        rw [Option.eq_none_iff_forall_ne_some]
        intro e' fault
        rw [(faults x e').mpr fault] at first
        cases first
      rw [sound]
      simp only [← ih]
      cases xs.mapM f <;> simp [bind, Except.bind, pure, Except.pure]

/-- Two computations both succeed, with results in a relation, or both fail with the same error. -/
inductive SameOutcome (related : α → β → Prop) : Except ε α → Except ε β → Prop where
  | ok {a : α} {b : β} (results : related a b) : SameOutcome related (.ok a) (.ok b)
  | error (e : ε) : SameOutcome related (.error e) (.error e)

namespace SameOutcome

variable {related : α → β → Prop} {related' : α' → β' → Prop}

/-- Two steps that have the same outcomes each have the same outcome together. -/
theorem bind {x : Except ε α} {y : Except ε β} {f : α → Except ε α'} {g : β → Except ε β'}
    (first : SameOutcome related x y)
    (later : ∀ a b, related a b → SameOutcome related' (f a) (g b)) :
    SameOutcome related' (x >>= f) (y >>= g) := by
  cases first with
  | ok results => exact later _ _ results
  | error e => exact .error e

/-- Computations over two lists have the same outcome if they have it member by member. -/
theorem mapM {f : α' → Except ε α} {g : β' → Except ε β} {xs : List α'} {ys : List β'}
    (each : List.Forall₂ (fun x y => SameOutcome related (f x) (g y)) xs ys) :
    SameOutcome (List.Forall₂ related) (xs.mapM f) (ys.mapM g) := by
  induction each with
  | nil => exact .ok .nil
  | cons first _ ih =>
    rw [List.mapM_cons, List.mapM_cons]
    exact first.bind fun _ _ here => ih.bind fun _ _ rest => .ok (.cons here rest)

/-- What is made of related results in the same way is the same. -/
theorem map_eq {x : Except ε α} {y : Except ε β} {f : α → γ} {g : β → γ}
    (same : SameOutcome related x y) (each : ∀ a b, related a b → f a = g b) :
    x.map f = y.map g := by
  cases same with
  | ok results => exact congrArg Except.ok (each _ _ results)
  | error e => rfl

end SameOutcome

/-- Two computations give related results wherever both succeed. -/
def WhenOk (related : α → β → Prop) (x : Except ε α) (y : Except ε β) : Prop :=
  ∀ a b, x = .ok a → y = .ok b → related a b

namespace WhenOk

variable {related : α → β → Prop} {related' : α' → β' → Prop}

/-- Two steps that agree when they succeed agree together when both succeed. -/
theorem bind {x : Except ε α} {y : Except ε β} {f : α → Except ε α'} {g : β → Except ε β'}
    (first : WhenOk related x y) (later : ∀ a b, related a b → WhenOk related' (f a) (g b)) :
    WhenOk related' (x >>= f) (y >>= g) := by
  intro a' b' left right
  obtain ⟨a, fst, left⟩ := bind_eq_ok_iff.mp left
  obtain ⟨b, fst', right⟩ := bind_eq_ok_iff.mp right
  exact later a b (first a b fst fst') a' b' left right

/-- Results that are related agree. -/
theorem ok {a : α} {b : β} (results : related a b) :
    WhenOk related (.ok a : Except ε α) (.ok b : Except ε β) := by
  rintro _ _ ⟨⟩ ⟨⟩
  exact results

/-- A failure has nothing to agree on. -/
theorem error_left {e : ε} {y : Except ε β} : WhenOk related (.error e : Except ε α) y := by
  rintro _ _ ⟨⟩

theorem error_right {x : Except ε α} {e : ε} : WhenOk related x (.error e : Except ε β) := by
  rintro _ _ _ ⟨⟩

/-- Computations over two lists agree when both succeed if they do member by member. -/
theorem mapM {f : α' → Except ε α} {g : β' → Except ε β} {xs : List α'} {ys : List β'}
    (each : List.Forall₂ (fun x y => WhenOk related (f x) (g y)) xs ys) :
    WhenOk (List.Forall₂ related) (xs.mapM f) (ys.mapM g) := by
  induction each with
  | nil => exact .ok .nil
  | cons first _ ih =>
    rw [List.mapM_cons, List.mapM_cons]
    exact first.bind fun _ _ here => ih.bind fun _ _ rest => .ok (.cons here rest)

end WhenOk

end Warehouse
