/-
Module: Warehouse.Graph.Order
Purpose: Putting nodes in an order in which each comes after what it needs. Every member waits for
  its prerequisites among the members; one that waits for nothing is ready, and placing it releases
  what needs it. Taking always the least ready member gives the order, taking all ready members at
  once gives the levels. Members that are never released lie on a cycle or behind one, or are no
  nodes; then the answer is a walk against the needs that ends where it meets itself.
Trusted boundary: none
Main exports: Sweep, DependencyGraph.orderOf, DependencyGraph.levelsOf, Cycle
-/
import Warehouse.Graph.Dependency

namespace Warehouse

/-- A walk along needs, from prerequisite to dependent, that begins with a cycle. -/
structure Cycle (α : Type) where
  path : List α
deriving DecidableEq, Repr

/-- The report of a cycle, given how a node is written. -/
def Cycle.message {α : Type} (display : α → String) (c : Cycle α) : String :=
  "dependency cycle detected: " ++ " -> ".intercalate (c.path.map display)

/-- For each member the number of prerequisites that it still waits for. -/
abbrev Waiting (α : Type) := List (α × Int)

/-- How many members wait for something. -/
def Waiting.held {α : Type} (w : Waiting α) : Nat := w.countP fun (_, n) => 0 < n

/-- A state on the way to an order: who waits for how many, and who waits for none. The ready are in
ascending order. -/
structure Sweep (α : Type) where
  waiting : Waiting α
  ready : List α

namespace DependencyGraph

variable {α : Type} [DecidableEq α] [Ord α]

/-- What each member waits for at first: its prerequisites among the members. Only nodes are
counted. -/
def waiting (g : DependencyGraph α) (members : List α) : Waiting α :=
  (members.filter g.contains).map fun m => (m, ((g.prerequisites m).countP (· ∈ members) : Nat))

/-- The waiting once `x` is placed: all that need it wait for one fewer. -/
def release (g : DependencyGraph α) (x : α) (w : Waiting α) : Waiting α :=
  w.map fun (m, n) => if g.isNeed m x then (m, n - 1) else (m, n)

/-- Those that waited for nothing but `x`. -/
def freed (g : DependencyGraph α) (x : α) (w : Waiting α) : List α :=
  (w.filter fun (m, n) => g.isNeed m x && n = 1).map Prod.fst

omit [DecidableEq α] [Ord α] in
private theorem held_cons (m : α) (n : Int) (w : Waiting α) :
    Waiting.held ((m, n) :: w) = w.held + if 0 < n then 1 else 0 := by
  simp [Waiting.held, List.countP_cons]

omit [Ord α] in
private theorem length_freed_cons (g : DependencyGraph α) (x m : α) (n : Int) (w : Waiting α) :
    (g.freed x ((m, n) :: w)).length =
      (g.freed x w).length + if g.isNeed m x ∧ n = 1 then 1 else 0 := by
  by_cases h : g.isNeed m x ∧ n = 1 <;> simp_all [freed]

omit [Ord α] in
/-- A step frees no more members than there are that wait for something before it and for nothing
after. -/
theorem length_freed_add_held_release_le (g : DependencyGraph α) (x : α) (w : Waiting α) :
    (g.freed x w).length + (g.release x w).held ≤ w.held := by
  induction w with
  | nil => simp [freed, release, Waiting.held]
  | cons p w ih =>
    obtain ⟨m, n⟩ := p
    have hrelease : g.release x ((m, n) :: w) =
        (m, if g.isNeed m x then n - 1 else n) :: g.release x w := by
      by_cases h : g.isNeed m x <;> simp [release, h]
    rw [hrelease, held_cons, held_cons, length_freed_cons]
    by_cases hneed : g.isNeed m x <;> simp only [hneed, true_and, if_true] <;>
      grind

/-! ### One at a time -/

/-- The state in which nothing is placed. -/
def start (g : DependencyGraph α) (members : List α) : Sweep α :=
  let w := g.waiting members
  ⟨w, (w.filter fun (_, n) => n = 0).map Prod.fst⟩

/-- The state after `x` is placed, where `rest` was ready besides. -/
def afterPlacing (g : DependencyGraph α) (x : α) (w : Waiting α) (rest : List α) : Sweep α :=
  ⟨g.release x w, insertAllAscending rest (g.freed x w)⟩

/-- What is placed from a state on, in order. -/
def placed (g : DependencyGraph α) (s : Sweep α) : List α :=
  match s with
  | ⟨_, []⟩ => []
  | ⟨w, x :: rest⟩ => x :: g.placed (g.afterPlacing x w rest)
termination_by s.ready.length + s.waiting.held
decreasing_by
  have h₁ := length_insertAllAscending_le rest (g.freed x w)
  have h₂ := g.length_freed_add_held_release_le x w
  simp only [afterPlacing, List.length_cons]
  omega

/-! ### Level by level -/

/-- Places the whole of a level. The state's `ready` collects the next level. -/
def placeLevel (g : DependencyGraph α) (s : Sweep α) : List α → Sweep α
  | [] => s
  | x :: rest =>
    g.placeLevel ⟨g.release x s.waiting, insertAllAscending s.ready (g.freed x s.waiting)⟩ rest

/-- What is ready and what is held back gets less by what is placed. -/
private theorem measure_placeLevel_le (g : DependencyGraph α) (s : Sweep α) (level : List α) :
    (g.placeLevel s level).ready.length + (g.placeLevel s level).waiting.held ≤
      s.ready.length + s.waiting.held := by
  induction level generalizing s with
  | nil => simp [placeLevel]
  | cons x rest ih =>
    have h₁ := length_insertAllAscending_le s.ready (g.freed x s.waiting)
    have h₂ := g.length_freed_add_held_release_le x s.waiting
    have h₃ := ih ⟨g.release x s.waiting, insertAllAscending s.ready (g.freed x s.waiting)⟩
    simp only [placeLevel] at *
    omega

/-- The levels from a state on. -/
def levelsFrom (g : DependencyGraph α) (s : Sweep α) : List (List α) :=
  match s with
  | ⟨_, []⟩ => []
  | ⟨w, x :: rest⟩ => (x :: rest) :: g.levelsFrom (g.placeLevel ⟨w, []⟩ (x :: rest))
termination_by s.ready.length + s.waiting.held
decreasing_by
  have := g.measure_placeLevel_le ⟨w, []⟩ (x :: rest)
  simp only [List.length_cons, List.length_nil] at *
  omega

/-! ### Members that are never released -/

/-- Walks from `current` to a prerequisite that is stuck, and on, until the walk meets itself or
finds none. The path so far is `current :: passed`. -/
def walkBack (g : DependencyGraph α) (stuck : List α) (current : α) (passed : List α) : List α :=
  match _ : (g.prerequisites current).find? (· ∈ stuck) with
  | none => current :: passed
  | some up =>
    if up ∈ current :: passed then up :: current :: passed
    else g.walkBack stuck up (current :: passed)
termination_by (stuck.filter (· ∉ current :: passed)).length
decreasing_by
  rename_i found hnew
  have hup : up ∈ stuck := by simpa using List.find?_some found
  have hsub : stuck.filter (· ∉ up :: current :: passed) =
      (stuck.filter (· ∉ current :: passed)).filter (· ≠ up) := by
    rw [List.filter_filter]
    congr 1
    funext y
    simp [List.mem_cons, not_or]
  rw [hsub]
  exact List.length_filter_lt_length_iff_exists.mpr
    ⟨up, List.mem_filter.mpr ⟨hup, by simpa using hnew⟩, by simp⟩

/-- The report for members of which only `placed` can be placed. -/
def cycle (g : DependencyGraph α) (members placed : List α) : Cycle α :=
  match members.filter (· ∉ placed) with
  | [] => ⟨[]⟩
  | first :: rest => ⟨g.walkBack (first :: rest) first []⟩

/-! ### Orders and levels -/

/-- The members, once each, every one after those that it needs, and the least first where there is
a choice. -/
def orderOf (g : DependencyGraph α) (members : List α) : Except (Cycle α) (List α) :=
  let members := ascending members
  let placed := g.placed (g.start members)
  if placed.length < members.length then .error (g.cycle members placed) else .ok placed

/-- The order of all nodes. -/
def order (g : DependencyGraph α) : Except (Cycle α) (List α) := g.orderOf g.nodes

/-- The members in levels: every member stands in the level after the last of those that it
needs. -/
def levelsOf (g : DependencyGraph α) (members : List α) : Except (Cycle α) (List (List α)) :=
  let members := ascending members
  let levels := g.levelsFrom (g.start members)
  if levels.flatten.length < members.length then .error (g.cycle members levels.flatten)
  else .ok levels

/-- The levels of all nodes. -/
def levels (g : DependencyGraph α) : Except (Cycle α) (List (List α)) := g.levelsOf g.nodes

end DependencyGraph

end Warehouse
