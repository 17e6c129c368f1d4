/-
Module: Warehouse.Proofs.Catalog.ShadowTurns
Purpose: What becomes of a catalog when datasets are given their shadows one after another, key by
  key. Each base has its turn. Its shadow is made from the base as it stands then: as it was in the
  beginning, or, if it is itself the shadow of a base that had its turn before, as it is in the end.
  A shadow that is not declared gets the next number. Each turn asks for the next number, and so all
  of them succeed just if there is one at the turn of every base.
Trusted boundary: none
Main exports: Catalog.withShadow, Catalog.get?_syncShadow, Catalog.numberAfter, Catalog.TakeTurns,
  Catalog.takeTurns_of_syncShadowsOf, Catalog.NumbersSuffice, Catalog.syncShadowsOf_cases,
  CatalogDocument.bases, CatalogDocument.generated, CatalogDocument.NumbersSuffice,
  CatalogDocument.synced_cases, Catalog.takeTurns_of_ofDocument
-/
import Warehouse.Proofs.Catalog.Stages

namespace Warehouse

namespace Catalog

variable {c c' : Catalog}

/-! ### One turn -/

/-- The shadow of a base: made of what is declared under its key, or generated under a number. -/
def withShadow (base : Dataset) (number : UInt32) : Option Dataset → Dataset
  | some declared => resync base.key (deriveShadow base number) declared
  | none => deriveShadow base number

/-- Where all datasets are changed in a way that keeps keys, what is found is what was found,
changed. -/
theorem get?_eq_map {f : Dataset → Dataset} (keeps : ∀ d, (f d).key = d.key)
    (datasets : c'.datasets = c.datasets.map f) (k : DatasetKey) :
    c'.get? k = (c.get? k).map f := by
  rw [get?, get?, datasets, List.find?_map]
  have same : ((fun d => decide (d.key = k)) ∘ f) = fun d => decide (d.key = k) := by
    funext d
    rw [Function.comp_apply, keeps]
  rw [same]

/-- Where a dataset is added at the end, it is found unless one of its key was there. -/
theorem get?_eq_or {d : Dataset} (datasets : c'.datasets = c.datasets ++ [d]) (k : DatasetKey) :
    c'.get? k = (c.get? k).or (if d.key = k then some d else none) := by
  rw [get?, get?, datasets, List.find?_append, List.find?_singleton]
  simp only [decide_eq_true_eq]

/-- A turn changes what is found under the key of the shadow, and nothing else. -/
theorem Turn.get?_eq {base : Dataset} {number : UInt32} (turn : c.Turn base number c') :
    c'.get? (shadowKey base.key) =
        some (withShadow base number (c.get? (shadowKey base.key))) ∧
      ∀ k, k ≠ shadowKey base.key → c'.get? k = c.get? k := by
  cases turn with
  | updated declared =>
    obtain ⟨e, there⟩ := Option.isSome_iff_exists.mp (contains_iff.mpr declared)
    have look (k : DatasetKey) : Catalog.get? { c with
        datasets := c.datasets.map fun d =>
          if d.key = shadowKey base.key then resync base.key (deriveShadow base number) d
            else d } k =
        (c.get? k).map _ := get?_eq_map (fun d => by split <;> rfl) rfl k
    refine ⟨?_, fun k other => ?_⟩
    · rw [look, there, Option.map_some, if_pos (of_get? there).2]
      rfl
    · rw [look]
      cases found : c.get? k with
      | none => rfl
      | some d =>
        rw [Option.map_some, if_neg]
        rw [(of_get? found).2]
        exact other
  | generated _ absent =>
    have none : c.get? (shadowKey base.key) = none :=
      Option.not_isSome_iff_eq_none.mp fun there => absent (contains_iff.mp there)
    have look (k : DatasetKey) : Catalog.get? { c with
        datasets := c.datasets ++ [deriveShadow base number] } k = _ := get?_eq_or rfl k
    rw [key_deriveShadow] at look
    refine ⟨?_, fun k other => ?_⟩
    · rw [look, none, if_pos rfl]
      rfl
    · rw [look, if_neg other.symm, Option.or_none]

/-- What is found after a turn: under the key of the shadow what the turn made of it, and under all
other keys what was there before. -/
theorem get?_syncShadow {key : DatasetKey} (sync : c.syncShadow key = .ok c') :
    ∃ number base, c.nextId = .ok number ∧ c.get? key = some base ∧
      c'.get? (shadowKey key) = some (withShadow base number (c.get? (shadowKey key))) ∧
      ∀ k, k ≠ shadowKey key → c'.get? k = c.get? k := by
  obtain ⟨number, base, next, found, turn⟩ := syncShadow_eq_ok_iff.mp sync
  obtain ⟨_, rfl⟩ := of_get? found
  exact ⟨number, base, next, found, turn.get?_eq⟩

/-! ### Numbers

The next number is one more than the largest that is there. While it fits in 32 bits, it is then the
largest itself, so that the numbers that are given are consecutive. -/

/-- The number that is next when that many have been given away. -/
def numberAfter (c : Catalog) (given : Nat) : UInt32 := UInt32.ofNat (c.largestId + given + 1)

/-- As long as they are numbers of 32 bits, those that are given away ascend from the largest. -/
theorem toNat_numberAfter {given : Nat} (fits : c.largestId + given + 1 < UInt32.size) :
    (c.numberAfter given).toNat = c.largestId + given + 1 := by
  rw [numberAfter, UInt32.toNat_ofNat']
  exact Nat.mod_eq_of_lt fits

/-- The next number is the first one behind those that are there. -/
theorem eq_numberAfter_zero {number : UInt32} (next : c.nextId = .ok number) :
    number = c.numberAfter 0 := by
  obtain ⟨fits, follows⟩ := nextId_eq_ok_iff.mp next
  rw [← UInt32.toNat_inj, toNat_numberAfter fits, follows]

/-- A turn gives a number away if nothing is declared under the key of the shadow. -/
theorem largestId_syncShadow {key : DatasetKey} (sync : c.syncShadow key = .ok c') :
    c'.largestId = c.largestId + if (c.get? (shadowKey key)).isNone then 1 else 0 := by
  obtain ⟨number, base, next, found, turn⟩ := syncShadow_eq_ok_iff.mp sync
  obtain ⟨_, rfl⟩ := of_get? found
  cases turn with
  | updated declared =>
    obtain ⟨e, there⟩ := Option.isSome_iff_exists.mp (contains_iff.mpr declared)
    rw [there, Option.isNone_some, if_neg Bool.false_ne_true, Nat.add_zero, largestId, largestId,
      List.map_map]
    refine congrArg (List.foldl max 0) (List.map_congr_left fun d _ => ?_)
    rw [Function.comp_apply]
    split <;> rfl
  | generated _ absent =>
    have none : c.get? (shadowKey base.key) = none :=
      Option.not_isSome_iff_eq_none.mp fun there => absent (contains_iff.mp there)
    rw [none, Option.isNone_none, if_pos rfl, largestId, List.map_append, List.foldl_append]
    have follows := (nextId_eq_ok_iff.mp next).2
    exact (congrArg (max c.largestId) follows).trans (Nat.max_eq_right (Nat.le_succ _))

/-- The numbers go on where a turn leaves them. -/
theorem numberAfter_syncShadow {key : DatasetKey} (sync : c.syncShadow key = .ok c') (given : Nat) :
    c'.numberAfter given =
      c.numberAfter ((if (c.get? (shadowKey key)).isNone then 1 else 0) + given) := by
  rw [numberAfter, numberAfter, largestId_syncShadow sync, Nat.add_assoc c.largestId]

/-! ### All turns -/

/-- The bases whose shadow is generated. -/
def generatedOf (c : Catalog) (bases : List DatasetKey) : List DatasetKey :=
  bases.filter fun b => (c.get? (shadowKey b)).isNone

/-- What the turns of the bases do, one after another. -/
structure TakeTurns (c c' : Catalog) (bases : List DatasetKey) : Prop where
  /-- What is called like no shadow stays as it is. -/
  others : ∀ k, (∀ b ∈ bases, k ≠ shadowKey b) → c'.get? k = c.get? k
  largest : c'.largestId = c.largestId + (c.generatedOf bases).length
  /-- A base that is the shadow of an earlier one is as it is in the end when its turn comes, any
  other as it was. -/
  shadows : ∀ before b after, bases = before ++ b :: after → ∃ base,
    (if b ∈ before.map shadowKey then c'.get? b else c.get? b) = some base ∧
      c'.get? (shadowKey b) =
        some (withShadow base (c.numberAfter (c.generatedOf before).length) (c.get? (shadowKey b)))

/-- Without turns nothing happens. -/
private theorem takeTurns_nil (c : Catalog) : c.TakeTurns c [] where
  others _ _ := rfl
  largest := rfl
  shadows before b after split := absurd split.symm (by simp)

/-- Which shadows are generated is decided by what is found under their keys. -/
private theorem generatedOf_congr {c₁ : Catalog} {bases : List DatasetKey}
    (same : ∀ b ∈ bases, c₁.get? (shadowKey b) = c.get? (shadowKey b)) :
    c₁.generatedOf bases = c.generatedOf bases := by
  refine List.filter_congr fun b listed => ?_
  rw [same b listed]

/-- Which shadows are still to be generated does not change with the turn of another base. -/
theorem generatedOf_syncShadow {key : DatasetKey} {bases : List DatasetKey} (others : key ∉ bases)
    (sync : c.syncShadow key = .ok c') : c'.generatedOf bases = c.generatedOf bases := by
  obtain ⟨_, _, _, _, _, kept⟩ := get?_syncShadow sync
  exact generatedOf_congr fun b listed => kept _ fun same =>
    others (shadowKey_injective same ▸ listed)

/-- The first base has its shadow generated if nothing is found under its key. -/
theorem generatedOf_cons (b : DatasetKey) (bases : List DatasetKey) : c.generatedOf (b :: bases) =
    if (c.get? (shadowKey b)).isNone then b :: c.generatedOf bases else c.generatedOf bases :=
      List.filter_cons

private theorem length_generatedOf_cons (b : DatasetKey) (bases : List DatasetKey) :
    (c.generatedOf (b :: bases)).length =
      (if (c.get? (shadowKey b)).isNone then 1 else 0) + (c.generatedOf bases).length := by
  rw [generatedOf_cons]
  split
  · rw [List.length_cons, Nat.add_comm]
  · rw [Nat.zero_add]

/-- A turn followed by turns is a row of turns, for the turns of others leave the shadow of the
first alone. -/
theorem TakeTurns.cons {c₁ : Catalog} {key : DatasetKey} {rest : List DatasetKey}
    (distinct : (key :: rest).Nodup) (first : c.syncShadow key = .ok c₁)
    (later : c₁.TakeTurns c' rest) : c.TakeTurns c' (key :: rest) := by
  obtain ⟨number, base, next, found, shadow, others⟩ := get?_syncShadow first
  have fresh : key ∉ rest := (List.nodup_cons.mp distinct).1
  have apart : ∀ b ∈ rest, shadowKey b ≠ shadowKey key := by
    intro b listed same
    exact fresh (shadowKey_injective same ▸ listed)
  refine ⟨fun k named => ?_, ?_, fun before b after split => ?_⟩
  · obtain ⟨notFirst, notLater⟩ := List.forall_mem_cons.mp named
    exact (later.others k notLater).trans (others k notFirst)
  · rw [later.largest, largestId_syncShadow first, generatedOf_syncShadow fresh first,
      length_generatedOf_cons, Nat.add_assoc]
  · cases before with
    | nil =>
      obtain ⟨rfl, rfl⟩ := List.cons.inj split
      refine ⟨base, (if_neg List.not_mem_nil).trans found, ?_⟩
      rw [later.others _ fun b listed => (apart b listed).symm, shadow, eq_numberAfter_zero next]
      rfl
    | cons key' before =>
      obtain ⟨rfl, rfl⟩ := List.cons.inj split
      obtain ⟨base', atTurn, made⟩ := later.shadows before b after rfl
      have listed : b ∈ before ++ b :: after := List.mem_append_right _ List.mem_cons_self
      refine ⟨base', ?_, ?_⟩
      · rw [← atTurn, List.map_cons]
        by_cases early : b ∈ before.map shadowKey
        · rw [if_pos early, if_pos (List.mem_cons_of_mem _ early)]
        · rw [if_neg early]
          by_cases next : b = shadowKey key
          · rw [if_pos (List.mem_cons.mpr (.inl next)), later.others b fun b' there same => ?_]
            exact apart b' there (same.symm.trans next)
          · rw [if_neg fun either => early ((List.mem_cons.mp either).resolve_left next),
              others b next]
      · have number : c₁.numberAfter (c₁.generatedOf before).length =
            c.numberAfter (c.generatedOf (key :: before)).length := by
          have later : key ∉ before := fun there => fresh (List.mem_append_left _ there)
          rw [numberAfter_syncShadow first, generatedOf_syncShadow later first,
            length_generatedOf_cons]
        rw [made, number, others _ (apart b listed)]

/-- Datasets that are given their shadows take their turns. -/
theorem takeTurns_of_syncShadowsOf {bases : List DatasetKey} (distinct : bases.Nodup)
    (sync : c.syncShadowsOf bases = .ok c') : c.TakeTurns c' bases := by
  induction bases generalizing c with
  | nil =>
    cases sync
    exact takeTurns_nil _
  | cons key rest ih =>
    obtain ⟨c₁, first, later⟩ := bind_eq_ok_iff.mp sync
    exact TakeTurns.cons distinct first (ih (List.nodup_cons.mp distinct).2 later)

/-! ### Whether there are numbers enough

Every base asks for a number at its turn, also if its shadow is declared. So it is not the count of
what is generated alone that matters, but what the largest number is when the turn of each base
comes. -/

/-- Whether there is a next number whenever one of these bases has its turn. -/
def NumbersSuffice (c : Catalog) (bases : List DatasetKey) : Prop :=
  ∀ i < bases.length, c.largestId + (c.generatedOf (bases.take i)).length + 1 < UInt32.size

instance (c : Catalog) (bases : List DatasetKey) : Decidable (c.NumbersSuffice bases) :=
  inferInstanceAs (Decidable (∀ i < bases.length, _))

/-- The first base needs a next number. -/
theorem NumbersSuffice.left {key : DatasetKey} {rest : List DatasetKey}
    (suffice : c.NumbersSuffice (key :: rest)) : c.largestId + 1 < UInt32.size :=
  suffice 0 (Nat.zero_lt_succ _)

/-- After the first turn, the others need what it leaves. -/
theorem numbersSuffice_cons_iff {c₁ : Catalog} {key : DatasetKey} {rest : List DatasetKey}
    (fresh : key ∉ rest) (first : c.syncShadow key = .ok c₁) :
    c.NumbersSuffice (key :: rest) ↔ c₁.NumbersSuffice rest := by
  obtain ⟨number, _, next, -⟩ := get?_syncShadow first
  have left : c.largestId + 1 < UInt32.size := (nextId_eq_ok_iff.mp next).1
  rw [NumbersSuffice, List.length_cons, Nat.forall_lt_succ_left]
  refine (and_iff_right left).trans (forall₂_congr fun i _ => ?_)
  have fresh : key ∉ rest.take i := fun listed => fresh (List.mem_of_mem_take listed)
  rw [List.take_succ_cons, length_generatedOf_cons, largestId_syncShadow first,
    generatedOf_syncShadow fresh first, ← Nat.add_assoc c.largestId]

/-- Datasets that are there can be given their shadows just if there are numbers enough. Else it is
the numbers that are missed. -/
theorem syncShadowsOf_cases {keys : List DatasetKey} (distinct : c.DistinctKeys)
    (schemas : c.SchemasDeclared) (once : keys.Nodup)
    (there : ∀ key ∈ keys, ∃ d ∈ c.datasets, d.key = key) :
    c.NumbersSuffice keys ∧ (∃ c', c.syncShadowsOf keys = .ok c') ∨
      ¬ c.NumbersSuffice keys ∧ c.syncShadowsOf keys = .error .numbersExhausted := by
  induction keys generalizing c with
  | nil => exact .inl ⟨fun i none => absurd none (Nat.not_lt_zero i), c, rfl⟩
  | cons key rest ih =>
    obtain ⟨⟨base, member, rfl⟩, others⟩ := List.forall_mem_cons.mp there
    obtain ⟨fresh, once'⟩ := List.nodup_cons.mp once
    by_cases left : c.largestId + 1 < UInt32.size
    · obtain ⟨c₁, first⟩ := exists_syncShadow distinct schemas member left
      obtain ⟨base', member', same, synced⟩ := synced_of_syncShadow first
      obtain rfl := distinct.eq member' member same
      have later := ih (synced.distinct distinct) (synced.schemasDeclared member schemas) once'
        fun key listed => synced.has_iff.mpr (.inl (others key listed))
      rw [numbersSuffice_cons_iff fresh first, syncShadowsOf, first]
      exact later
    · refine .inr ⟨fun suffice => left suffice.left, ?_⟩
      exact bind_eq_error_iff.mpr (.inl (syncShadow_eq_error left base.key))

end Catalog

/-! ### From a document -/

namespace CatalogDocument

/-- The keys of the datasets that get shadows, in the order of the document. -/
def bases (doc : CatalogDocument) : List DatasetKey :=
  (doc.datasets.filter fun d => ! d.isShadow && doc.declared.wantsHistory d).map Dataset.key

/-- Those of them whose shadow is not declared. -/
def generated (doc : CatalogDocument) : List DatasetKey := doc.declared.generatedOf doc.bases

/-- Whether there is a next number whenever a dataset gets its shadow. -/
def NumbersSuffice (doc : CatalogDocument) : Prop := doc.declared.NumbersSuffice doc.bases

instance (doc : CatalogDocument) : Decidable doc.NumbersSuffice :=
  inferInstanceAs (Decidable (doc.declared.NumbersSuffice doc.bases))

variable {doc : CatalogDocument}

/-- The bases are told from the document as it is declared, since to link datasets makes none a
shadow. -/
theorem historizedKeys_linked : doc.linked.historizedKeys = doc.bases := by
  rw [Catalog.historizedKeys, linked, List.filter_map, List.map_map]
  have keys : Dataset.key ∘ Catalog.linkSources doc.declared.queryGraph = Dataset.key :=
    funext (Catalog.linkSources_key _)
  have wanted : (fun d => ! d.isShadow && doc.linked.wantsHistory d) ∘ Catalog.linkSources
    doc.declared.queryGraph =
      fun d => ! d.isShadow && doc.declared.wantsHistory d := by
    funext d
    rw [Function.comp_apply, isShadow_linkSources, wantsHistory_linkSources]
  rw [keys]
  exact congrArg (fun p => (doc.datasets.filter p).map Dataset.key) wanted

/-- What is found in the linked catalog is what was declared, linked. -/
theorem get?_linked (k : DatasetKey) :
    doc.linked.get? k = (doc.declared.get? k).map (Catalog.linkSources doc.declared.queryGraph) :=
  Catalog.get?_eq_map (Catalog.linkSources_key _) rfl k

/-- To link datasets does not change which shadows have to be generated. -/
theorem generatedOf_linked (bases : List DatasetKey) :
    doc.linked.generatedOf bases = doc.declared.generatedOf bases := by
  refine List.filter_congr fun b _ => ?_
  rw [get?_linked, Option.isNone_map]

/-- To link datasets does not change the largest number. -/
theorem largestId_linked : doc.linked.largestId = doc.declared.largestId := by
  have ids : doc.linked.datasets.map (fun d => d.id.toNat) = doc.declared.datasets.map fun d =>
      d.id.toNat := by
    rw [linked, List.map_map]
    refine List.map_congr_left fun d _ => ?_
    rw [Function.comp_apply, Catalog.linkSources_eq]
  rw [Catalog.largestId, Catalog.largestId, ids]

/-- Each base has one turn. -/
theorem bases_nodup (distinct : doc.declared.DistinctKeys) : doc.bases.Nodup :=
  distinct.sublist (List.filter_sublist.map Dataset.key)

/-- A base is a dataset of the document. -/
theorem declared_of_mem_bases {b : DatasetKey} (listed : b ∈ doc.bases) :
    ∃ d ∈ doc.datasets, d.key = b := by
  obtain ⟨d, kept, rfl⟩ := List.mem_map.mp listed
  exact ⟨d, (List.mem_filter.mp kept).1, rfl⟩

private theorem numbersSuffice_linked (bases : List DatasetKey) :
    doc.linked.NumbersSuffice bases ↔ doc.declared.NumbersSuffice bases := by
  simp only [Catalog.NumbersSuffice, generatedOf_linked, largestId_linked]

/-- A document with distinct keys and declared schemas gets its shadows just if there are numbers
enough. Else it is the numbers that are missed. -/
theorem synced_cases (schemas : doc.declared.SchemasDeclared)
    (distinct : doc.declared.DistinctKeys) :
    doc.NumbersSuffice ∧ (∃ c, doc.linked.syncShadowsOf doc.linked.historizedKeys = .ok c) ∨
      ¬ doc.NumbersSuffice ∧
        doc.linked.syncShadowsOf doc.linked.historizedKeys = .error .numbersExhausted := by
  rw [historizedKeys_linked, NumbersSuffice, ← numbersSuffice_linked]
  refine Catalog.syncShadowsOf_cases (linked_distinctKeys distinct)
    (linked_schemasDeclared schemas) (bases_nodup distinct) fun key listed => ?_
  obtain ⟨d, declared, named⟩ := declared_of_mem_bases listed
  exact linked_has_iff.mpr ⟨d, declared, named⟩

end CatalogDocument

namespace Catalog

variable {doc : CatalogDocument} {c : Catalog}

/-- A shadow is generated for each base under whose shadow's key nothing is declared. -/
theorem mem_generated_iff {b : DatasetKey} : b ∈ doc.generated ↔
    b ∈ doc.bases ∧ doc.linked.get? (shadowKey b) = none := by
  rw [CatalogDocument.generated, generatedOf, List.mem_filter, Option.isNone_iff_eq_none,
    CatalogDocument.get?_linked, Option.map_eq_none_iff]

/-- A catalog is accepted after the turns of all bases. -/
theorem takeTurns_of_ofDocument (accepted : ofDocument doc = .ok c) :
    doc.linked.TakeTurns c doc.bases := by
  obtain ⟨_, distinct, _, synced, _⟩ := ofDocument_eq_ok_iff.mp accepted
  rw [CatalogDocument.historizedKeys_linked] at synced
  exact takeTurns_of_syncShadowsOf (CatalogDocument.bases_nodup distinct) synced

/-- For a document that is accepted there are numbers enough. -/
theorem numbersSuffice_of_ofDocument (accepted : ofDocument doc = .ok c) : doc.NumbersSuffice := by
  obtain ⟨schemas, distinct, _, synced, _⟩ := ofDocument_eq_ok_iff.mp accepted
  rcases CatalogDocument.synced_cases schemas distinct with ⟨suffice, _⟩ | ⟨_, missed⟩
  · exact suffice
  · cases synced.symm.trans missed

/-- All numbers that are given away are numbers of 32 bits. -/
theorem largestId_add_generated_lt (accepted : ofDocument doc = .ok c) :
    doc.declared.largestId + doc.generated.length < UInt32.size := by
  have largest := (takeTurns_of_ofDocument accepted).largest
  rw [CatalogDocument.largestId_linked, CatalogDocument.generatedOf_linked] at largest
  exact largest ▸ c.largestId_lt

end Catalog

end Warehouse
