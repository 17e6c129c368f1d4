/-
Module: Warehouse.Proofs.Run.Selection
Purpose: Whether what a run loads is closed: with every dataset all that it reads and its shadow. A
  run adds the shadows last, so it is closed just if they bring nothing new with them. A shadow that
  is declared may: what it reads besides its base is not loaded for it.
Trusted boundary: none
Main exports: Belongs, SelectsExactly, ShadowsBringNothing, selectsExactly_iff
-/
import Warehouse.Proofs.Run.Order

namespace Warehouse

/-- What belongs to a run with those roots: the roots, with each dataset what it reads and its
shadow, and nothing else. -/
inductive Belongs (c : Catalog) (roots : List DatasetKey) : DatasetKey → Prop where
  | root {k : DatasetKey} (listed : k ∈ roots) : Belongs c roots k
  | input {k u : DatasetKey} (belongs : Belongs c roots k) (reads : c.Reads k u) : Belongs c roots u
  | shadow {k : DatasetKey} {s : Dataset} (belongs : Belongs c roots k)
    (kept : c.shadowOf? k = some s) :
      Belongs c roots s.key

/-- An order that has all that belongs to a run and nothing else, each dataset once and after what
it reads. -/
structure SelectsExactly (c : Catalog) (roots : List DatasetKey) (order : List Dataset) : Prop where
  once : (order.map Dataset.key).Nodup
  least : ∀ k, k ∈ order.map Dataset.key ↔ Belongs c roots k
  after : ∀ before d later, order = before ++ d :: later →
    ∀ u ∈ d.inputs, u ∈ before.map Dataset.key

/-- Whether the shadows of what is reached read only what is selected, and have no shadow themselves
that is not. -/
def ShadowsBringNothing (c : Catalog) (roots : List DatasetKey) : Prop :=
  ∀ b s, c.Reached roots b → c.shadowOf? b = some s →
    (∀ u ∈ s.inputs, c.Selected roots u) ∧ ∀ t, c.shadowOf? s.key = some t → c.Selected roots t.key

section

variable {c : Catalog} {roots : List DatasetKey} {k : DatasetKey}

/-- What a root leads to belongs to its run. -/
theorem belongs_of_reached (reached : c.Reached roots k) : Belongs c roots k := by
  obtain ⟨r, root, chain⟩ := reached
  induction chain with
  | refl => exact .root root
  | tail _ reads ih => exact .input ih reads

/-- What is selected belongs to the run. -/
theorem belongs_of_selected (selected : c.Selected roots k) : Belongs c roots k := by
  rcases selected with reached | ⟨b, s, reached, kept, rfl⟩
  · exact belongs_of_reached reached
  · exact .shadow (belongs_of_reached reached) kept

/-- If shadows bring nothing new, the selection is closed. -/
theorem selected_of_belongs (distinct : c.DistinctKeys) (nothing : ShadowsBringNothing c roots)
    (belongs : Belongs c roots k) : c.Selected roots k := by
  induction belongs with
  | root listed => exact .inl ⟨_, listed, .refl⟩
  | input _ reads ih =>
    rcases ih with reached | ⟨b, s, reached, kept, rfl⟩
    · exact .inl (reached.read reads)
    · obtain ⟨d, member, same, input⟩ := reads
      obtain rfl := distinct.eq member (Catalog.of_shadowOf? kept).1 same
      exact (nothing b d reached kept).1 _ input
  | shadow _ kept ih =>
    rcases ih with reached | ⟨b, s, reached, kept', rfl⟩
    · exact .inr ⟨_, _, reached, kept, rfl⟩
    · exact (nothing b s reached kept').2 _ kept

end

/-- A run with roots loads what is selected, each dataset once and after what it reads of it; and
that is all that belongs to the run just if shadows bring nothing new. -/
theorem selectsExactly_iff {doc : CatalogDocument} {c : Catalog} {roots : List DatasetKey}
    {order : List Dataset} (accepted : Catalog.ofDocument doc = .ok c) (rooted : roots ≠ [])
    (found : runOrder c roots = .ok order) :
    (order.map Dataset.key).Nodup ∧
      (∀ k, k ∈ order.map Dataset.key ↔ c.Selected roots k) ∧
      (∀ before d later, order = before ++ d :: later →
        ∀ u ∈ d.inputs, c.Selected roots u → u ∈ before.map Dataset.key) ∧
      (SelectsExactly c roots order ↔ ShadowsBringNothing c roots) := by
  have runs := runsInOrder_of_runOrder found
  have distinct := (Catalog.sound_of_ofDocument accepted).distinct
  have members (k : DatasetKey) : k ∈ order.map Dataset.key ↔ c.Selected roots k := by
    rw [runs.members.all, mem_runMembers_iff rooted]
  have after : ∀ before d later, order = before ++ d :: later →
      ∀ u ∈ d.inputs, c.Selected roots u → u ∈ before.map Dataset.key := by
    intro before d later split u input selected
    exact List.mem_map.mpr (runs.before split input ((mem_runMembers_iff rooted).mpr selected))
  refine ⟨runs.members.once, members, after, fun exact_ => ?_, fun nothing => ?_⟩
  · intro b s reached kept
    have shadow : Belongs c roots s.key := .shadow (belongs_of_reached reached) kept
    have selected (k : DatasetKey) (belongs : Belongs c roots k) : c.Selected roots k :=
      (members k).mp ((exact_.least k).mpr belongs)
    constructor
    · intro u input
      exact selected u (.input shadow ⟨s, (Catalog.of_shadowOf? kept).1, rfl, input⟩)
    · intro t kept'
      exact selected t.key (.shadow shadow kept')
  · have least (k : DatasetKey) : k ∈ order.map Dataset.key ↔ Belongs c roots k := by
      rw [members]
      exact ⟨belongs_of_selected, selected_of_belongs distinct nothing⟩
    refine ⟨runs.members.once, least, fun before d later split u input => ?_⟩
    have listed : d ∈ order := split ▸ List.mem_append_right _ List.mem_cons_self
    have belongs : Belongs c roots d.key := (least _).mp (List.mem_map_of_mem listed)
    exact after before d later split u input
      (selected_of_belongs distinct nothing (.input belongs ⟨d, runs.datasets listed, rfl, input⟩))

/-! ### Orders and their audit -/

/-- A table of sales without columns. -/
def salesTable (id : UInt32) (name : String) (strategy : LoadStrategy) (inputs : List DatasetKey) :
    Dataset where
  id := id
  schema := "sales"
  name := name
  strategy := strategy
  materialization := .table
  historize? := none
  naturalKeys := []
  formerNames := []
  handleDeletes := false
  incrementalFilter? := none
  inputs := inputs
  sources := []
  columns := []
  queryRoot? := none
  histOf? := none

/-- Orders whose history is kept. -/
def orders : Dataset := salesTable 1 "orders" .historize []

/-- Refunds, which read the orders. -/
def refunds : Dataset := salesTable 2 "refunds" .full [orders.key]

def salesSchema : Schema := ⟨"sales", .raw, true, false, true⟩

def ordersDocument : CatalogDocument := ⟨[salesSchema], [orders, refunds], []⟩

def ordersCatalog : Catalog := ⟨[salesSchema], [orders, refunds, deriveShadow orders 3], []⟩

private theorem ofDocument_orders : Catalog.ofDocument ordersDocument = .ok ordersCatalog := by
  with_unfolding_all rfl

/-- The run of the refunds loads the orders and their shadow with them. -/
theorem selectsExactly_refunds :
    Catalog.ofDocument ordersDocument = .ok ordersCatalog ∧ [refunds.key] ≠ [] ∧
      runOrder ordersCatalog [refunds.key] = .ok [orders, deriveShadow orders 3, refunds] ∧
      SelectsExactly ordersCatalog [refunds.key] [orders, deriveShadow orders 3, refunds] := by
  have found : runOrder ordersCatalog [refunds.key] =
    .ok [orders, deriveShadow orders 3, refunds] := by cbv
  refine ⟨ofDocument_orders, by decide, found, ?_⟩
  refine (selectsExactly_iff ofDocument_orders (by decide) found).2.2.2.mpr
    fun b s reached kept => ?_
  obtain ⟨member, keeps⟩ := Catalog.of_shadowOf? kept
  obtain rfl : s = deriveShadow orders 3 := by
    rcases List.mem_cons.mp member with rfl | member
    · cases keeps
    · rcases List.mem_cons.mp member with rfl | member
      · cases keeps
      · exact List.mem_singleton.mp member
  cases keeps
  refine ⟨fun u input => ?_, fun t kept' => ?_⟩
  · rw [List.mem_singleton.mp input]
    exact .inl reached
  · have none : ordersCatalog.shadowOf? (deriveShadow orders 3).key = none := by rfl
    rw [none] at kept'
    cases kept'

/-- An audit, and a shadow of the orders that is declared and reads it. -/
def audit : Dataset := salesTable 3 "audit" .full []

def auditedHistory : Dataset := salesTable 4 "orders_hist" .full [audit.key]

def auditedDocument : CatalogDocument := ⟨[salesSchema], [orders, audit, auditedHistory], []⟩

def auditedCatalog : Catalog :=
  ⟨[salesSchema],
    [orders, audit, Catalog.resync orders.key (deriveShadow orders 5) auditedHistory], []⟩

/-- The run of the orders leaves the audit out that their shadow reads. -/
theorem not_selectsExactly_audited :
    Catalog.ofDocument auditedDocument = .ok auditedCatalog ∧
      runOrder auditedCatalog [orders.key] =
        .ok [orders, Catalog.resync orders.key (deriveShadow orders 5) auditedHistory] ∧
      ¬ SelectsExactly auditedCatalog [orders.key]
        [orders, Catalog.resync orders.key (deriveShadow orders 5) auditedHistory] := by
  refine ⟨by with_unfolding_all rfl, by cbv, fun exact_ => ?_⟩
  have kept : auditedCatalog.shadowOf? orders.key =
      some (Catalog.resync orders.key (deriveShadow orders 5) auditedHistory) := by rfl
  have shadow := Belongs.shadow (.root (List.mem_singleton_self orders.key)) kept
  have belongs : Belongs auditedCatalog [orders.key] audit.key :=
    .input shadow
      ⟨_, List.mem_cons_of_mem _ (List.mem_cons_of_mem _ (List.mem_singleton_self _)),
        rfl, by decide⟩
  have listed := (exact_.least _).mpr belongs
  revert listed
  decide

end Warehouse
