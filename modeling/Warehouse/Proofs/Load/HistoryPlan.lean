/-
Module: Warehouse.Proofs.Load.HistoryPlan
Purpose: Whether the history of a dataset is kept is decided twice, when a catalog makes shadows and
  when a load is planned. Both ask for the strategy, the wish of the dataset and the default of its
  schema. But the plan of a view is made before any of these is looked at, and says that there is no
  history.
Trusted boundary: none
Main exports: historize_of_resolveLoadPlan, Catalog.isSome_shadowOf?_iff, plan_tells_history_iff
-/
import Warehouse.Proofs.Catalog.Pairing
import Warehouse.Proofs.Load.Fingerprint

namespace Warehouse

variable {doc : CatalogDocument} {c : Catalog} {d : Dataset} {plan : LoadPlan}

/-! ### Plans -/

/-- What is planned is allowed by the schema. -/
private theorem checkSchemaPolicy_of_resolveLoadPlan (resolved : resolveLoadPlan c d = .ok plan) :
    checkSchemaPolicy c d = .ok () := by
  obtain ⟨_, passed, _⟩ := bind_eq_ok_iff.mp resolved
  exact passed

/-- A merge keeps a history if the dataset wants one. -/
theorem historize_of_mergePlan (merged : mergePlan c d = .ok plan) :
    plan.historize = c.wantsHistory d := by
  rw [mergePlan] at merged
  split at merged
  · cases merged
  · obtain ⟨_, _, rest⟩ := bind_eq_ok_iff.mp merged
    cases rest
    rfl

/-- The plan says that history is kept if it is wanted and the dataset is no view. -/
theorem historize_of_resolveLoadPlan (plain : d.isShadow = false)
    (resolved : resolveLoadPlan c d = .ok plan) :
    plan.historize = true ↔ c.wantsHistory d = true ∧ d.materialization ≠ .view := by
  have policy := checkSchemaPolicy_of_resolveLoadPlan resolved
  rw [resolveLoadPlan_eq policy] at resolved
  cases kind : d.materialization with
  | view =>
    rw [kind] at resolved
    cases resolved
    simp
  | externalPassthrough =>
    rw [kind] at resolved
    cases resolved
  | table | incremental =>
    simp only [kind, plain, Bool.false_eq_true, if_false] at resolved
    have history : plan.historize = c.wantsHistory d := by
      cases strategy : d.strategy with
      | full | append | snapshot =>
        rw [strategy] at resolved
        cases resolved
        rw [Catalog.wantsHistory, strategy]
      | merge | historize =>
        rw [strategy] at resolved
        exact historize_of_mergePlan resolved
    simp [history]

/-! ### Shadows -/

namespace Catalog

/-- A dataset has a shadow if some dataset claims to be its history. -/
theorem isSome_shadowOf?_iff_exists {base : DatasetKey} :
    (c.shadowOf? base).isSome = true ↔ ∃ s ∈ c.datasets, s.histOf? = some base := by
  rw [shadowOf?, List.find?_isSome]
  simp only [decide_eq_true_eq]

/-- Where no dataset is declared to be a shadow, those that want history have one, and no others. -/
theorem isSome_shadowOf?_iff (accepted : ofDocument doc = .ok c)
    (undeclared : ∀ e ∈ doc.datasets, e.histOf? = none) (member : d ∈ c.datasets)
    (plain : d.isShadow = false) :
    (c.shadowOf? d.key).isSome = true ↔ c.wantsHistory d = true := by
  have all := syncedAll_of_ofDocument accepted
  rw [isSome_shadowOf?_iff_exists]
  constructor
  · rintro ⟨s, there, histOf⟩
    by_cases named : doc.NamesShadow s.key
    · obtain ⟨base, historizes, _, histOf'⟩ := all.histOf_of_namesShadow there named
      have key : base.key = d.key := Option.some.inj (histOf'.symm.trans histOf)
      obtain ⟨e, declared, apart, rfl⟩ :=
        all.exists_declared member (all.not_namesShadow member plain)
      rw [linkSources_key] at key
      obtain rfl := (declared_distinctKeys accepted).eq historizes.1 declared key
      exact ((wantsHistory_iff accepted plain).mpr ⟨base, historizes, apart, rfl⟩).2
    · obtain ⟨e, declared, _, rfl⟩ := all.exists_declared there named
      rw [histOf?_linkSources, undeclared e declared] at histOf
      cases histOf
  · intro wanted
    obtain ⟨s, there, shadow, _⟩ := (sound_of_ofDocument accepted).shadowed d member plain wanted
    exact ⟨s, there, shadow.histOf⟩

end Catalog

/-! ### Both decisions -/

/-- The plan of a dataset that is no shadow says that history is kept just if the catalog has a
shadow of it and it is no view. So the plan and the catalog agree just if it is no view, or a view
of which no history is wanted. -/
theorem plan_tells_history_iff (accepted : Catalog.ofDocument doc = .ok c)
    (undeclared : ∀ e ∈ doc.datasets, e.histOf? = none) (member : d ∈ c.datasets)
    (plain : d.isShadow = false) (resolved : resolveLoadPlan c d = .ok plan) :
    (plan.historize = true ↔ (c.shadowOf? d.key).isSome = true ∧ d.materialization ≠ .view) ∧
      ((plan.historize = true ↔ (c.shadowOf? d.key).isSome = true) ↔
        (d.materialization = .view → c.wantsHistory d = false)) := by
  rw [historize_of_resolveLoadPlan plain resolved,
    Catalog.isSome_shadowOf?_iff accepted undeclared member plain, ← Bool.not_eq_true]
  refine ⟨Iff.rfl, ?_⟩
  rw [and_iff_left_iff_imp, imp_not_comm]

/-- The plan of the customers says that their history is kept, as it is. -/
theorem plan_tells_history_of_customers :
    Catalog.ofDocument (customersDocument [] []) = .ok (customersCatalog [] 3) ∧
      resolveLoadPlan (customersCatalog [] 3) customers = .ok ⟨customers.key, .merge, true, true⟩ ∧
      ((customersCatalog [] 3).shadowOf? customers.key).isSome = true := by
  have accepted : Catalog.ofDocument (customersDocument [] []) = .ok (customersCatalog [] 3) := by
    with_unfolding_all rfl
  have resolved : resolveLoadPlan (customersCatalog [] 3) customers =
      .ok ⟨customers.key, .merge, true, true⟩ := by
    decide
  have agree :=
    plan_tells_history_iff accepted (by decide) (by simp [customersCatalog]) rfl resolved
  exact ⟨accepted, resolved, (agree.1.mp rfl).1⟩

/-- A view of the customers whose history is kept. -/
def keptView : Dataset := { customers with strategy := .historize, materialization := .view }

/-- The catalog has a shadow of the view, of which its plan says nothing. -/
theorem not_always_told_by_plan :
    ¬ ∀ doc c d plan, Catalog.ofDocument doc = .ok c → (∀ e ∈ doc.datasets, e.histOf? = none) →
    d ∈ c.datasets →
      d.isShadow = false → resolveLoadPlan c d = .ok plan →
      (plan.historize = true ↔ (c.shadowOf? d.key).isSome = true) := by
  intro always
  have accepted :
    Catalog.ofDocument { customersDocument [] [] with datasets := [stagedCustomers, keptView] } =
      .ok { (customersCatalog [] 3) with
        datasets := [stagedCustomers, keptView, deriveShadow keptView 3] } := by
    with_unfolding_all rfl
  have agree :=
    always _ _ keptView ⟨keptView.key, .view, false, false⟩ accepted (by decide)
      (by simp) rfl (by decide)
  exact absurd (agree.mpr rfl) (by decide)

end Warehouse
