/-
Module: Warehouse.Proofs.Sql.KeyHash
Purpose: What hash keys come to. A hash is never `NULL`: every part of the text that is hashed has
  the token for `NULL` to fall back on.
Trusted boundary: none
Main exports: Engine.hashed, Engine.hashOf, eval_hashComponents, exists_hashInput, sortByName_map
-/
import Warehouse.Proofs.Lists
import Warehouse.Proofs.Sql.Meaning
import Warehouse.Sql.KeyHash

namespace Warehouse.Sql

variable {V : Type} [LinearOrder V]

namespace Engine

/-- The text that is hashed for a value; the token for `NULL` if there is none. -/
def hashed (E : Engine V) (v : Option V) : V := (v.bind (E.cast .string)).getD (E.text nullToken)

/-- The hash of several values. -/
def hashOf (E : Engine V) (separator : String) (values : List (Option V)) : V :=
  E.hash (E.join ((values.map E.hashed).intersperse (E.text separator)))

end Engine

/-- Components that are computed from their names alone stand in the order of the names. -/
theorem sortByName_map (names : List String) (f : String → Expr) :
    sortByName (names.map fun n => ⟨n, f n⟩) = (names.mergeSort (· ≤ ·)).map fun n => ⟨n, f n⟩ := by
  rw [sortByName, List.map_mergeSort]
  simp

/-- The text of a component is never `NULL`. -/
theorem eval_nullSafe (w : World V) (e : Expr) (sc : Scope V) :
    ((nullSafe e).eval w sc).value w.engine =
      some (w.engine.hashed ((e.eval w sc).value w.engine)) := by
  have token : w.engine.constant (.string nullToken) = some (w.engine.text nullToken) :=
    w.engine.constant_string nullToken (by decide)
  simp only [nullSafe, Expr.eval, Expr.evalAll, Datum.value_scalar, Expr.str, token, Engine.hashed]
  cases ((e.eval w sc).value w.engine).bind (w.engine.cast .string) <;> rfl

/-- The parts of the text that is hashed. -/
theorem evalAll_separated (w : World V) {separator : String}
    (visible : w.engine.constant (.string separator) = some (w.engine.text separator))
    (es : List Expr) (sc : Scope V) :
    Expr.evalAll w ((es.map nullSafe).intersperse (.str separator)) sc =
      (((es.map fun e => w.engine.hashed ((e.eval w sc).value w.engine)).intersperse
        (w.engine.text separator)).map some) := by
  have separated : ((Expr.str separator).eval w sc).value w.engine =
      some (w.engine.text separator) :=
    visible
  induction es with
  | nil => rfl
  | cons e es ih =>
    cases es with
    | nil => simp [Expr.evalAll, eval_nullSafe]
    | cons e' es =>
      simp only [List.map_cons, List.intersperse_cons_cons, Expr.evalAll, eval_nullSafe,
        separated] at ih ⊢
      rw [ih]

/-- A hash is computed, and from the texts of its components. -/
theorem eval_hashComponents (w : World V) {components : List HashComponent} {separator : String}
    {e : Expr} (built : hashComponents components separator = .ok e) (visible : separator ≠ "")
    (sc : Scope V) :
    (e.eval w sc).value w.engine = some (w.engine.hashOf separator
      ((sortByName components).map fun c => (c.expr.eval w sc).value w.engine)) := by
  unfold hashComponents at built
  split at built
  · cases built
  · cases built
    have parts := evalAll_separated w (w.engine.constant_string separator visible)
      ((sortByName components).map HashComponent.expr) sc
    rw [List.map_map, List.map_map] at parts
    simp only [Function.comp_def] at parts
    simp only [Expr.eval, Datum.value_scalar, parts, mapM_id_map_some, Option.map_some,
      Engine.hashOf, List.map_map, Function.comp_def]

/-- A hash reads only the rows in view if its components do. -/
theorem isLocal_hashComponents {components : List HashComponent} {separator : String} {e : Expr}
    (built : hashComponents components separator = .ok e)
    (each : ∀ c ∈ components, c.expr.isLocal = true) : e.isLocal = true := by
  unfold hashComponents at built
  split at built
  · cases built
  · cases built
    have parts : ∀ p ∈ (sortByName components).map (nullSafe ·.expr), p.isLocal = true := by
      intro p member
      obtain ⟨c, sorted, rfl⟩ := List.mem_map.mp member
      have reads := each c ((List.mergeSort_perm components _).mem_iff.mp sorted)
      simp [nullSafe, Expr.isLocal, Expr.areLocal, reads, Expr.str]
    rw [Expr.isLocal, Expr.isLocal, Expr.areLocal_eq_all, List.all_eq_true]
    intro p member
    rcases mem_of_mem_intersperse member with rfl | part
    · rfl
    · exact parts p part

/-- Components are hashed unless there are none. -/
theorem exists_hashInput {components : List HashComponent} (some : components ≠ [])
    (separator : String) : ∃ input, hashComponents components separator = .ok (.hash256 input) := by
  unfold hashComponents
  rw [if_neg (by simpa using some)]
  exact ⟨_, rfl⟩

/-- Components can be hashed if there are any. -/
theorem exists_hashComponents_eq_ok {components : List HashComponent} (some : components ≠ [])
    (separator : String) : ∃ e, hashComponents components separator = .ok e := by
  obtain ⟨input, built⟩ := exists_hashInput some separator
  exact ⟨_, built⟩

end Warehouse.Sql
