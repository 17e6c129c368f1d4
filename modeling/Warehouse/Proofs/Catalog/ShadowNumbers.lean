/-
Module: Warehouse.Proofs.Catalog.ShadowNumbers
Purpose: The numbers of the shadows that are generated. Each is one more than the largest number
  there is at its turn. So the numbers go up from the largest one that is declared, in the order of
  the bases, and no dataset has had them; but where a sum is too large for 32 bits, the whole
  catalog is given up. Whether that happens can be told from the document.
Trusted boundary: none
Main exports: Catalog.numberOf, Catalog.syncShadow_numbers, Catalog.ofDocument_numbers,
  Catalog.FreshNumbers, Catalog.freshNumbers, Catalog.shadow_numbers_iff
-/
import Warehouse.Proofs.Catalog.Acceptance
import Warehouse.Proofs.Catalog.ShadowTurns

namespace Warehouse

namespace Catalog

variable {c c' : Catalog}

/-! ### One turn

A turn adds a dataset or none. So the list of keys and numbers either stays as it is or grows by one
pair at its end. -/

/-- The key of a dataset with its number. -/
def numberOf (d : Dataset) : DatasetKey × UInt32 := (d.key, d.id)

/-- A turn leaves the numbers that are there. A shadow that it generates gets the next one. -/
theorem syncShadow_numbers {key : DatasetKey} (sync : c.syncShadow key = .ok c') :
    c'.datasets.map numberOf = c.datasets.map numberOf ++
      if (c.get? (shadowKey key)).isNone then [(shadowKey key, c.numberAfter 0)] else [] := by
  obtain ⟨number, base, next, found, turn⟩ := syncShadow_eq_ok_iff.mp sync
  obtain ⟨_, rfl⟩ := of_get? found
  rw [← eq_numberAfter_zero next]
  cases turn with
  | updated declared =>
    obtain ⟨e, there⟩ := Option.isSome_iff_exists.mp (contains_iff.mpr declared)
    rw [there, Option.isNone_some, if_neg Bool.false_ne_true, List.append_nil, List.map_map]
    refine List.map_congr_left fun d _ => ?_
    rw [Function.comp_apply]
    split <;> rfl
  | generated _ absent =>
    rw [Option.not_isSome_iff_eq_none.mp fun there => absent (contains_iff.mp there),
      List.map_append]
    rfl

/-! ### All turns

Over all turns the list grows by one pair for each shadow that is generated. The number of each is
determined by how many were generated before it. -/

/-- The generated shadows come behind the other datasets and are numbered in the order of their
bases. -/
theorem syncShadowsOf_numbers {bases : List DatasetKey} (distinct : bases.Nodup)
    (sync : c.syncShadowsOf bases = .ok c') : c'.datasets.map numberOf = c.datasets.map numberOf ++
      (c.generatedOf bases).mapIdx fun i b => (shadowKey b, c.numberAfter i) := by
  induction bases generalizing c with
  | nil =>
    cases sync
    exact (List.append_nil _).symm
  | cons key rest ih =>
    obtain ⟨c₁, first, later⟩ := bind_eq_ok_iff.mp sync
    obtain ⟨fresh, distinct⟩ := List.nodup_cons.mp distinct
    rw [ih distinct later, syncShadow_numbers first, generatedOf_syncShadow fresh first,
      List.append_assoc, generatedOf_cons]
    congr 1
    simp only [numberAfter_syncShadow first]
    split
    · rw [List.mapIdx_cons]
      simp only [Nat.add_comm 1]
      rfl
    · simp only [List.nil_append, Nat.zero_add]

/-! ### From a document -/

variable {doc : CatalogDocument}

/-- To link datasets does not touch their keys and numbers. -/
private theorem linked_numbers (doc : CatalogDocument) :
    doc.linked.datasets.map numberOf = doc.datasets.map numberOf := by
  rw [CatalogDocument.linked, List.map_map]
  refine List.map_congr_left fun d _ => ?_
  rw [Function.comp_apply, linkSources_eq]
  rfl

/-- Declared datasets keep their numbers, and the generated shadows come behind them. -/
theorem ofDocument_numbers (accepted : ofDocument doc = .ok c) : c.datasets.map numberOf =
    doc.datasets.map numberOf ++
      doc.generated.mapIdx fun i b => (shadowKey b, doc.declared.numberAfter i) := by
  obtain ⟨_, distinct, _, synced, _⟩ := ofDocument_eq_ok_iff.mp accepted
  rw [CatalogDocument.historizedKeys_linked] at synced
  have numbers (given : Nat) : doc.linked.numberAfter given = doc.declared.numberAfter given := by
    rw [numberAfter, numberAfter, CatalogDocument.largestId_linked]
  rw [syncShadowsOf_numbers (CatalogDocument.bases_nodup distinct) synced, linked_numbers,
    CatalogDocument.generatedOf_linked]
  simp only [numbers]
  rfl

/-- Whether every shadow that is generated has a number of its own. -/
def FreshNumbers (c : Catalog) (doc : CatalogDocument) : Prop :=
  ∀ s ∈ c.datasets, ¬ doc.Declares s.key → ∀ d ∈ c.datasets, d.id = s.id → d = s

/-- The numbers of the generated shadows. -/
def givenNumbers (doc : CatalogDocument) : List UInt32 :=
  (List.range doc.generated.length).map doc.declared.numberAfter

/-- What is generated was not declared. -/
private theorem not_declares_of_mem_generated {b : DatasetKey} (generated : b ∈ doc.generated) :
    ¬ doc.Declares (shadowKey b) := by
  intro declares
  have there := contains_iff.mpr (CatalogDocument.linked_has_iff.mpr declares)
  rw [contains, (mem_generated_iff.mp generated).2] at there
  cases there

/-- The datasets of a catalog: those that were declared, and those that were generated. -/
theorem exists_parts (accepted : ofDocument doc = .ok c) : ∃ declared generated,
    c.datasets = declared ++ generated ∧ declared.map numberOf = doc.datasets.map numberOf ∧
      (∀ s ∈ generated, ¬ doc.Declares s.key) ∧ generated.map Dataset.id = givenNumbers doc := by
  obtain ⟨declared, generated, datasets, numbers, numbers'⟩ :=
    List.map_eq_append_iff.mp (ofDocument_numbers accepted)
  refine ⟨declared, generated, datasets, numbers, fun s made => ?_, ?_⟩
  · have there : numberOf s ∈ generated.map numberOf := List.mem_map_of_mem made
    rw [numbers', List.mem_mapIdx] at there
    obtain ⟨i, bound, same⟩ := there
    rw [← (Prod.mk.inj same).1]
    exact not_declares_of_mem_generated (List.getElem_mem bound)
  · have ids : generated.map Dataset.id = (generated.map numberOf).map Prod.snd := by
      rw [List.map_map]
      rfl
    rw [ids, numbers']
    exact List.ext_getElem (by simp [givenNumbers]) fun i _ _ => by simp [givenNumbers]

/-- The numbers are fresh just if they differ among themselves and from those that are declared. -/
theorem freshNumbers_iff_nodup (accepted : ofDocument doc = .ok c) : c.FreshNumbers doc ↔
    (givenNumbers doc).Nodup ∧ ∀ d ∈ doc.datasets, d.id ∉ givenNumbers doc := by
  obtain ⟨declared, generated, datasets, numbers, others, ids⟩ := exists_parts accepted
  have distinct : (declared ++ generated).Nodup := by
    rw [← datasets]
    exact List.Nodup.of_map _ (syncedAll_of_ofDocument accepted).distinct
  have nodup_iff := List.nodup_map_iff_inj_on (f := Dataset.id) (List.nodup_append.mp distinct).2.1
  have mem_declared {n : DatasetKey × UInt32} :
      n ∈ declared.map numberOf ↔ n ∈ doc.datasets.map numberOf := by rw [numbers]
  rw [← ids, nodup_iff, FreshNumbers, datasets]
  constructor
  · intro fresh
    refine ⟨fun s made s' made' same => ?_, fun d there taken => ?_⟩
    · exact fresh s' (List.mem_append_right _ made') (others s' made') s
        (List.mem_append_right _ made) same
    · obtain ⟨s, made, same⟩ := List.mem_map.mp taken
      obtain ⟨e, kept, number⟩ := List.mem_map.mp (mem_declared.mpr (List.mem_map_of_mem there))
      obtain ⟨key, id⟩ := Prod.mk.inj number
      have one :=
        fresh s (List.mem_append_right _ made) (others s made) e (List.mem_append_left _ kept)
          (id.trans same.symm)
      exact others s made ⟨d, there, key.symm.trans (congrArg Dataset.key one)⟩
  · rintro ⟨apart, untaken⟩ s member made d member' same
    have declares {e : Dataset} (kept : e ∈ declared) :
        ∃ d ∈ doc.datasets, numberOf d = numberOf e :=
      List.mem_map.mp (mem_declared.mp (List.mem_map_of_mem kept))
    have made : s ∈ generated := by
      refine (List.mem_append.mp member).resolve_left fun kept => made ?_
      obtain ⟨e, there, number⟩ := declares kept
      exact ⟨e, there, (Prod.mk.inj number).1⟩
    rcases List.mem_append.mp member' with kept | made'
    · obtain ⟨e, there, number⟩ := declares kept
      refine absurd (List.mem_map.mpr ⟨s, made, ?_⟩) (untaken e there)
      exact same.symm.trans (Prod.mk.inj number).2.symm
    · exact apart d made' s made same

/-- In a catalog that is accepted the number of each generated shadow is above all declared ones and
above those that were given away before. -/
theorem toNat_givenNumber (accepted : ofDocument doc = .ok c) {given : Nat}
    (few : given < doc.generated.length) :
    (doc.declared.numberAfter given).toNat = doc.declared.largestId + given + 1 := by
  have bound := largestId_add_generated_lt accepted
  exact toNat_numberAfter (by omega)

/-- No number is given twice, since each is one more than the one before. -/
theorem nodup_givenNumbers (accepted : ofDocument doc = .ok c) : (givenNumbers doc).Nodup := by
  refine (List.nodup_map_iff_inj_on List.nodup_range).mpr fun m few n few' same => ?_
  rw [List.mem_range] at few few'
  rw [← UInt32.toNat_inj, toNat_givenNumber accepted few, toNat_givenNumber accepted few'] at same
  omega

/-- No number is given that was declared, since each is above the largest of those. -/
theorem not_mem_givenNumbers (accepted : ofDocument doc = .ok c) :
    ∀ d ∈ doc.datasets, d.id ∉ givenNumbers doc := by
  intro d there taken
  obtain ⟨given, few, same⟩ := List.mem_map.mp taken
  have above : d.id.toNat ≤ doc.declared.largestId := largestId_le_iff.mp le_rfl d there
  rw [← same, toNat_givenNumber accepted (List.mem_range.mp few)] at above
  omega

/-- Generated shadows have numbers of their own in every catalog that is accepted. -/
theorem freshNumbers (accepted : ofDocument doc = .ok c) : c.FreshNumbers doc :=
  (freshNumbers_iff_nodup accepted).mpr
    ⟨nodup_givenNumbers accepted, not_mem_givenNumbers accepted⟩

/-- A document that resolves, and whose query nodes read what is declared, gives a catalog just if
there is a next number whenever a dataset gets its shadow, which for each turn can be told from the
document. Else the sum that is too large is what is wrong with it. In every catalog that it gives
the generated shadows have numbers of their own. -/
theorem shadow_numbers_iff (resolves : doc.Resolves)
    (declares : ∀ key, doc.Queries key → doc.Declares key) :
    ((∃ c, ofDocument doc = .ok c) ↔ doc.NumbersSuffice) ∧
      (ofDocument doc = .error .numbersExhausted ↔ ¬ doc.NumbersSuffice) ∧
      ∀ c, ofDocument doc = .ok c → c.FreshNumbers doc := by
  refine ⟨?_, ?_, fun c accepted => freshNumbers accepted⟩
  · rcases ofDocument_cases resolves declares with ⟨suffice, accepted⟩ | ⟨few, missed⟩
    · exact iff_of_true accepted suffice
    · refine iff_of_false ?_ few
      rintro ⟨c, accepted⟩
      cases missed.symm.trans accepted
  · rcases ofDocument_cases resolves declares with ⟨suffice, c, accepted⟩ | ⟨few, missed⟩
    · refine iff_of_false (fun missed => ?_) (not_not_intro suffice)
      cases missed.symm.trans accepted
    · exact iff_of_true missed few

/-- A document without query nodes resolves if all that it reads is declared. -/
theorem resolves_of_declared {doc : CatalogDocument}
    (schemas : ∀ d ∈ doc.datasets, ∃ s ∈ doc.schemas, s.name = d.schema)
    (distinct : (doc.datasets.map Dataset.key).Nodup) (none : doc.queryNodes = [])
    (inputs : ∀ d ∈ doc.datasets, ∀ u ∈ d.inputs, ∃ e ∈ doc.datasets, e.key = u) :
    doc.Resolves ∧ ∀ key, doc.Queries key → doc.Declares key := by
  have silent (key : DatasetKey) : ¬ doc.Queries key := by
    rintro ⟨id, n, node, -⟩
    have there : n ∈ doc.queryNodes := List.mem_reverse.mp (List.mem_of_find?_eq_some node)
    rw [none] at there
    cases there
  exact ⟨⟨schemas, distinct, fun d member u input => .inl (inputs d member u input),
    fun key named => absurd named (silent key)⟩, fun key named => absurd named (silent key)⟩

/-- The shadow of the customers gets the number behind theirs. -/
theorem shadow_numbers_of_customers :
    (customersDocument [] []).Resolves ∧
      (∀ key, (customersDocument [] []).Queries key → (customersDocument [] []).Declares key) ∧
      (customersDocument [] []).NumbersSuffice ∧
      ∃ c, ofDocument (customersDocument [] []) = .ok c ∧
        c.FreshNumbers (customersDocument [] []) := by
  obtain ⟨resolves, declares⟩ := @resolves_of_declared (customersDocument [] [])
    (by decide) (by decide) rfl (by decide)
  obtain ⟨accepts, -, fresh⟩ := shadow_numbers_iff resolves declares
  have suffice : (customersDocument [] []).NumbersSuffice := by decide
  obtain ⟨c, accepted⟩ := accepts.mpr suffice
  exact ⟨resolves, declares, suffice, c, accepted, fresh c accepted⟩

/-- The customers as they come in, under the first number. -/
def firstCustomers : Dataset := { stagedCustomers with id := 0 }

/-- The customers under the last number. -/
def lastCustomers : Dataset := { customers with id := 4294967295 }

/-- A document with the first number and the last one. -/
def fullDocument : CatalogDocument :=
  { customersDocument [] [] with datasets := [firstCustomers, lastCustomers] }

/-- There is no number behind that of the customers, though most numbers are not taken. -/
theorem not_always_fresh_numbers : fullDocument.Resolves ∧
    ofDocument fullDocument = .error .numbersExhausted ∧
    ¬ ∀ doc : CatalogDocument, doc.Resolves → (∀ key, doc.Queries key → doc.Declares key) →
      ∃ c, ofDocument doc = .ok c ∧ c.FreshNumbers doc := by
  have valid : fullDocument.Resolves ∧
      ∀ key, fullDocument.Queries key → fullDocument.Declares key :=
    resolves_of_declared (by decide) (by decide) rfl (by decide)
  have missed : ofDocument fullDocument = .error .numbersExhausted := by
    with_unfolding_all rfl
  refine ⟨valid.1, missed, fun always => ?_⟩
  obtain ⟨c, accepted, -⟩ := always fullDocument valid.1 valid.2
  cases missed.symm.trans accepted

end Catalog

end Warehouse
