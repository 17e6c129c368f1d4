/-
Module: Warehouse.Proofs.Catalog.Pairing
Purpose: Datasets and their shadows, one to one. The dataset that is called like the shadow of a
  base is made its shadow; any other dataset keeps what it declares itself to be the shadow of,
  which may be a base that has its shadow already, or nothing that is in the catalog.
Trusted boundary: none
Main exports: Catalog.HasOneShadow, Catalog.Paired, CatalogDocument.ClaimsNoBase, Catalog.paired_iff
-/
import Warehouse.Proofs.Catalog.Stages

namespace Warehouse

namespace Catalog

/-- Whether one dataset, and no other, says that it keeps the history of `base`, and is its
shadow. -/
def HasOneShadow (c : Catalog) (base : Dataset) : Prop :=
  ∃ s, (∀ d, d ∈ c.datasets ∧ d.histOf? = some base.key ↔ d = s) ∧ s.IsShadowOf base ∧
    base.key ∈ s.inputs

/-- Every dataset that wants history has one shadow, and every shadow has a base. -/
structure Paired (c : Catalog) : Prop where
  oneShadow : ∀ base ∈ c.datasets, base.isShadow = false → c.wantsHistory base = true →
    c.HasOneShadow base
  bases : ∀ d ∈ c.datasets, ∀ b, d.histOf? = some b → ∃ base ∈ c.datasets, base.key = b

end Catalog

namespace CatalogDocument

/-- Whether the declared datasets that stay what they are declared to be keep the history of
datasets that are there and get no shadow of their own. -/
def ClaimsNoBase (doc : CatalogDocument) : Prop :=
  ∀ d ∈ doc.datasets, ¬ doc.NamesShadow d.key → ∀ b, d.histOf? = some b →
    doc.Provides b ∧ ∀ base, doc.Historizes base → base.key = b → doc.NamesShadow b

end CatalogDocument

namespace Catalog

variable {doc : CatalogDocument} {c : Catalog}

/-! ### What becomes of a declared dataset -/

/-- What is not called like the shadow of a base is as it was declared, linked to its query tree. -/
theorem SyncedAll.exists_declared (all : SyncedAll doc.linked c doc.linked.historizedKeys)
    {d : Dataset} (member : d ∈ c.datasets) (apart : ¬ doc.NamesShadow d.key) :
    ∃ e ∈ doc.datasets, ¬ doc.NamesShadow e.key ∧ d = linkSources doc.declared.queryGraph e := by
  rcases all.sources d member with ⟨linked, _⟩ | ⟨b, listed, named, _⟩
  · obtain ⟨e, declared, rfl⟩ := CatalogDocument.mem_linked_iff.mp linked
    rw [linkSources_key] at apart
    exact ⟨e, declared, apart, rfl⟩
  · exact absurd (CatalogDocument.namesShadow_iff.mpr ⟨b, listed, named⟩) apart

/-- A dataset that is no shadow of another is left as it was when linked. -/
private theorem SyncedAll.mem_linkSources (all : SyncedAll doc.linked c doc.linked.historizedKeys)
    {e : Dataset} (declared : e ∈ doc.datasets) (apart : ¬ doc.NamesShadow e.key) :
    linkSources doc.declared.queryGraph e ∈ c.datasets := by
  refine all.kept _ (CatalogDocument.mem_linked_iff.mpr ⟨e, declared, rfl⟩) fun b listed named => ?_
  rw [linkSources_key] at named
  exact apart (CatalogDocument.namesShadow_iff.mpr ⟨b, listed, named⟩)

/-- What is called like the shadow of a base says that it is its shadow. -/
theorem SyncedAll.histOf_of_namesShadow (all : SyncedAll doc.linked c doc.linked.historizedKeys)
    {d : Dataset} (member : d ∈ c.datasets) (named : doc.NamesShadow d.key) :
    ∃ base, doc.Historizes base ∧ d.key = shadowKey base.key ∧ d.histOf? = some base.key := by
  rcases all.sources d member with ⟨_, apart⟩ | ⟨b, listed, named, histOf⟩
  · obtain ⟨b, listed, named⟩ := CatalogDocument.namesShadow_iff.mp named
    exact absurd named (apart b listed)
  · obtain ⟨base, historizes, rfl⟩ := CatalogDocument.mem_historizedKeys_iff.mp listed
    exact ⟨base, historizes, named, histOf⟩

/-- What is no shadow is not called like the shadow of a base. -/
theorem SyncedAll.not_namesShadow (all : SyncedAll doc.linked c doc.linked.historizedKeys)
    {d : Dataset} (member : d ∈ c.datasets) (plain : d.isShadow = false) :
    ¬ doc.NamesShadow d.key := by
  intro named
  obtain ⟨_, _, _, histOf⟩ := all.histOf_of_namesShadow member named
  rw [Dataset.isShadow, histOf] at plain
  cases plain

/-- To link a dataset does not make it a shadow. -/
theorem histOf?_linkSources (g : QueryGraph) (d : Dataset) :
    (linkSources g d).histOf? = d.histOf? := by
  rw [linkSources_eq]

/-- What says that it keeps the history of a base is the shadow made for it, or was declared to be
one. -/
theorem SyncedAll.histOf_cases (all : SyncedAll doc.linked c doc.linked.historizedKeys)
    {d : Dataset} (member : d ∈ c.datasets) {b : DatasetKey} (histOf : d.histOf? = some b) :
    (doc.Declares b ∧ d.key = shadowKey b) ∨
      ∃ e ∈ doc.datasets, ¬ doc.NamesShadow e.key ∧ e.histOf? = some b := by
  by_cases named : doc.NamesShadow d.key
  · obtain ⟨base, ⟨declared, _⟩, named, histOf'⟩ := all.histOf_of_namesShadow member named
    obtain rfl := Option.some.inj (histOf'.symm.trans histOf)
    exact .inl ⟨⟨base, declared, rfl⟩, named⟩
  · obtain ⟨e, declared, apart, rfl⟩ := all.exists_declared member named
    rw [histOf?_linkSources] at histOf
    exact .inr ⟨e, declared, apart, histOf⟩

/-- The datasets that want history in the end are those that wanted it when they were declared, less
those that have become shadows. -/
theorem wantsHistory_iff (accepted : ofDocument doc = .ok c) {d : Dataset}
    (plain : d.isShadow = false) : d ∈ c.datasets ∧ c.wantsHistory d = true ↔
      ∃ base, doc.Historizes base ∧ ¬ doc.NamesShadow base.key ∧
        d = linkSources doc.declared.queryGraph base := by
  have all := syncedAll_of_ofDocument accepted
  have wants (base : Dataset) : c.wantsHistory (linkSources doc.declared.queryGraph base) =
      doc.declared.wantsHistory base :=
    (wantsHistory_congr all.schemas _).trans (CatalogDocument.wantsHistory_linkSources _ base)
  constructor
  · rintro ⟨member, wanted⟩
    obtain ⟨base, declared, apart, rfl⟩ :=
      all.exists_declared member (all.not_namesShadow member plain)
    rw [CatalogDocument.isShadow_linkSources] at plain
    exact ⟨base, ⟨declared, plain, (wants base).symm.trans wanted⟩, apart, rfl⟩
  · rintro ⟨base, ⟨declared, _, wanted⟩, apart, rfl⟩
    exact ⟨all.mem_linkSources declared apart, (wants base).trans wanted⟩

/-! ### Pairs -/

/-- Where all are paired, no document dataset claims a base of its own accord. -/
theorem claimsNoBase_of_paired (accepted : ofDocument doc = .ok c) (paired : c.Paired) :
    doc.ClaimsNoBase := by
  have all := syncedAll_of_ofDocument accepted
  intro d declared apart b histOf
  have member := all.mem_linkSources declared apart
  have histOf' : (linkSources doc.declared.queryGraph d).histOf? = some b := by
    rw [histOf?_linkSources, histOf]
  refine ⟨all.provides_iff.mp (paired.bases _ member b histOf'), ?_⟩
  rintro base historizes rfl
  by_contra plainKey
  have plain : (linkSources doc.declared.queryGraph base).isShadow = false := by
    rw [CatalogDocument.isShadow_linkSources]
    exact historizes.2.1
  obtain ⟨baseMember, wanted⟩ :=
    (wantsHistory_iff accepted plain).mpr ⟨base, historizes, plainKey, rfl⟩
  obtain ⟨s, one, shadow, _⟩ := paired.oneShadow _ baseMember plain wanted
  rw [linkSources_key] at one
  -- The only dataset that names the base is called like its shadow, which `d` is not.
  obtain rfl := (one _).mp ⟨member, histOf'⟩
  have named := shadow.key
  rw [linkSources_key, linkSources_key] at named
  exact apart ⟨base, historizes, named⟩

/-- Where no dataset claims a base of its own accord, all are paired by the turns. -/
theorem paired_of_claimsNoBase (accepted : ofDocument doc = .ok c) (claims : doc.ClaimsNoBase) :
    c.Paired := by
  have all := syncedAll_of_ofDocument accepted
  have sound := sound_of_ofDocument accepted
  constructor
  · intro base baseMember plain wanted
    obtain ⟨s, shadowMember, shadow, reads⟩ := sound.shadowed base baseMember plain wanted
    obtain ⟨b, historizes, plainKey, rfl⟩ :=
      (wantsHistory_iff accepted plain).mp ⟨baseMember, wanted⟩
    refine ⟨s, fun d => ⟨fun ⟨member, histOf⟩ => ?_, ?_⟩, shadow, reads⟩
    · rcases all.histOf_cases member histOf with ⟨_, named⟩ | ⟨e, declared, apart, histOf⟩
      · exact sound.distinct.eq member shadowMember (named.trans shadow.key.symm)
      · rw [linkSources_key] at histOf
        exact absurd ((claims e declared apart _ histOf).2 b historizes rfl) plainKey
    · rintro rfl
      exact ⟨shadowMember, shadow.histOf⟩
  · intro d member b histOf
    refine all.provides_iff.mpr ?_
    rcases all.histOf_cases member histOf with ⟨declares, _⟩ | ⟨e, declared, apart, histOf⟩
    · exact .inl declares
    · exact (claims e declared apart b histOf).1

/-- In a catalog that is accepted, every dataset that wants history has its shadow under the name
made for it. It is the only one, and every shadow has a base, just if no other dataset is declared
to be the shadow of such a dataset or of one that is not there. -/
theorem paired_iff (accepted : ofDocument doc = .ok c) :
    (∀ base ∈ c.datasets, base.isShadow = false → c.wantsHistory base = true →
      ∃ s ∈ c.datasets, s.key = shadowKey base.key ∧ s.IsShadowOf base ∧ base.key ∈ s.inputs) ∧
      (c.Paired ↔ doc.ClaimsNoBase) := by
  refine ⟨fun base member plain wanted => ?_, claimsNoBase_of_paired accepted,
    paired_of_claimsNoBase accepted⟩
  obtain ⟨s, there, shadow, reads⟩ :=
    (sound_of_ofDocument accepted).shadowed base member plain wanted
  exact ⟨s, there, shadow.key, shadow, reads⟩

/-- The customers of the past, declared to keep the history of the customers. -/
def archive : Dataset :=
  { stagedCustomers with
    id := 3
    schema := "core"
    name := "archive"
    histOf? := some customers.key }

/-- The customers and their history, which is generated, are a pair. -/
theorem paired_customers : ofDocument (customersDocument [] []) = .ok (customersCatalog [] 3) ∧
    (customersCatalog [] 3).Paired := by
  have accepted : ofDocument (customersDocument [] []) = .ok (customersCatalog [] 3) := by
    with_unfolding_all rfl
  refine ⟨accepted, (paired_iff accepted).2.mpr fun d declared _ b histOf => ?_⟩
  have plain : ∀ d ∈ [stagedCustomers, customers], d.histOf? = none := by decide
  rw [plain d declared] at histOf
  cases histOf

/-- Both the archive and the shadow keep the history of the customers. -/
theorem not_paired_archive : ofDocument (customersDocument [archive] []) =
    .ok (customersCatalog [archive] 4) ∧ ¬ (customersCatalog [archive] 4).Paired := by
  refine ⟨by with_unfolding_all rfl, fun paired => ?_⟩
  obtain ⟨s, one, _⟩ := paired.oneShadow customers (by decide) rfl rfl
  have archived : archive = s := (one archive).mp ⟨by decide, rfl⟩
  have derived : deriveShadow customers 4 = s :=
    (one _).mp ⟨List.mem_append_right _ (List.mem_singleton_self _), rfl⟩
  exact absurd (archived.trans derived.symm) (by decide)

end Catalog

end Warehouse
