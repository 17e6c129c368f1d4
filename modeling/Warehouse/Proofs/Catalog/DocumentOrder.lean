/-
Module: Warehouse.Proofs.Catalog.DocumentOrder
Purpose: What the order of the datasets in a document counts for. The fingerprint takes them in the
  order of their keys. But the shadows that are generated are numbered in the order of the document,
  and a base that is declared as the shadow of another one gets its own shadow before or after it is
  made that. Where neither shows, the order does not count, and only there.
Trusted boundary: none
Main exports: CatalogDocument.Early, CatalogDocument.Reorders, Dataset.SameHistory,
  Catalog.fingerprintText_eq_iff_of_reorders
-/
import Warehouse.Proofs.Catalog.Fingerprint
import Warehouse.Proofs.Catalog.ShadowTurns

namespace Warehouse

/-! ### What counts in a document -/

/-- Whether the same history is kept of both datasets. -/
structure Dataset.SameHistory (d e : Dataset) : Prop where
  columns : shadowColumns d = shadowColumns e
  naturalKeys : d.naturalKeys = e.naturalKeys

theorem Dataset.SameHistory.symm {d e : Dataset} (same : d.SameHistory e) : e.SameHistory d :=
  ⟨same.columns.symm, same.naturalKeys.symm⟩

theorem Dataset.SameHistory.trans {d e f : Dataset} (first : d.SameHistory e)
    (second : e.SameHistory f) : d.SameHistory f :=
  ⟨first.columns.trans second.columns, first.naturalKeys.trans second.naturalKeys⟩

namespace CatalogDocument

/-- Whether a base gets its shadow before this shadow gets one itself. -/
def Early (doc : CatalogDocument) (b : DatasetKey) : Prop := [b, shadowKey b].Sublist doc.bases

/-- Whether the documents differ in the order of their datasets alone. -/
structure Reorders (doc doc' : CatalogDocument) : Prop where
  schemas : doc'.schemas = doc.schemas
  queryNodes : doc'.queryNodes = doc.queryNodes
  datasets : doc.datasets.Perm doc'.datasets

variable {doc doc' : CatalogDocument}

/-! ### The same in another order -/

namespace Reorders

variable (reorders : doc.Reorders doc')

include reorders

/-- The query nodes are in the same order in both documents, so the graph is the same. -/
theorem queryGraph : doc'.declared.queryGraph = doc.declared.queryGraph :=
  congrArg QueryGraph.mk reorders.queryNodes

/-- A key is declared once, so that the order in which it is looked for does not count. -/
theorem get?_declared (distinct : doc.declared.DistinctKeys) (k : DatasetKey) :
    doc.declared.get? k = doc'.declared.get? k := by
  have perm : doc.declared.datasets.Perm doc'.declared.datasets := reorders.datasets
  exact (Catalog.perm_iff_get?_eq distinct (distinct.perm perm)).mp perm k

/-- What is linked is found alike, since a dataset is linked by itself. -/
theorem get?_linked (distinct : doc.declared.DistinctKeys) (k : DatasetKey) :
    doc.linked.get? k = doc'.linked.get? k := by
  rw [CatalogDocument.get?_linked, CatalogDocument.get?_linked, reorders.queryGraph,
    reorders.get?_declared distinct]

/-- The largest number does not depend on the order. -/
theorem largestId : doc'.declared.largestId = doc.declared.largestId := by
  have same (n : Nat) : doc'.declared.largestId ≤ n ↔ doc.declared.largestId ≤ n := by
    rw [Catalog.largestId_le_iff, Catalog.largestId_le_iff]
    exact forall_congr' fun d => imp_congr_left reorders.datasets.mem_iff.symm
  exact le_antisymm ((same _).mpr le_rfl) ((same _).mp le_rfl)

theorem wantsHistory (d : Dataset) :
    doc'.declared.wantsHistory d = doc.declared.wantsHistory d := by
  have schemas : doc'.declared.schemas = doc.declared.schemas := reorders.schemas
  rw [Catalog.wantsHistory, Catalog.wantsHistory, Catalog.schema?, Catalog.schema?, schemas]

/-- The same datasets get shadows, in another order. -/
theorem bases : doc.bases.Perm doc'.bases := by
  rw [CatalogDocument.bases, CatalogDocument.bases]
  simp only [reorders.wantsHistory]
  exact (reorders.datasets.filter _).map _

/-- The same shadows are generated, in another order. -/
theorem generated (distinct : doc.declared.DistinctKeys) : doc.generated.Perm doc'.generated := by
  rw [CatalogDocument.generated, CatalogDocument.generated, Catalog.generatedOf,
    Catalog.generatedOf]
  simp only [← reorders.get?_declared distinct]
  exact reorders.bases.filter _

/-- What can be read off the datasets of a document does not depend on their order. -/
theorem legible (legible : doc.Legible) : doc'.Legible where
  datasets d declared := legible.datasets d (reorders.datasets.mem_iff.mpr declared)
  queryNodes := by
    rw [reorders.queryNodes]
    exact legible.queryNodes

end Reorders

/-! ### Bases at their turns -/

/-- Whether the dataset is made the shadow of another one before its turn. -/
def MadeBefore (doc : CatalogDocument) (b : DatasetKey) : Prop :=
  ∃ base, b = shadowKey base ∧ doc.Early base

/-- Whether the base is like that at its turn: in the end, or in the beginning. -/
def AtTurn (doc : CatalogDocument) (c : Catalog) (b : DatasetKey) (base : Dataset) : Prop :=
  doc.MadeBefore b ∧ c.get? b = some base ∨ ¬ doc.MadeBefore b ∧ doc.linked.get? b = some base

end CatalogDocument

namespace Catalog

variable {doc doc' : CatalogDocument} {c c' : Catalog} {b : DatasetKey}

private theorem columns_withShadow (base : Dataset) (number : UInt32) (declared : Option Dataset) :
    (withShadow base number declared).columns = shadowColumns base := by
  cases declared <;> rfl

private theorem naturalKeys_withShadow (base : Dataset) (number : UInt32)
    (declared : Option Dataset) :
    (withShadow base number declared).naturalKeys = base.naturalKeys := by
  cases declared <;> rfl

/-- Shadows made of two forms of a base are the same if they keep the same history, under one number
if any. -/
theorem withShadow_eq_iff {x y : Dataset} {m n : UInt32} {declared : Option Dataset}
    (key : x.key = y.key) (formerNames : x.formerNames = y.formerNames) :
    withShadow x m declared = withShadow y n declared ↔
      x.SameHistory y ∧ (declared = none → m = n) := by
  constructor
  · intro same
    refine ⟨⟨?_, ?_⟩, ?_⟩
    · rw [← columns_withShadow x m declared, same, columns_withShadow]
    · rw [← naturalKeys_withShadow x m declared, same, naturalKeys_withShadow]
    · rintro rfl
      exact congrArg Dataset.id same
  · rintro ⟨⟨columns, naturalKeys⟩, number⟩
    obtain ⟨schema, name⟩ := DatasetKey.mk.inj key
    cases declared with
    | none =>
      simp only [withShadow, deriveShadow, schema, name, naturalKeys, formerNames, key,
        columns, number rfl]
    | some e => simp only [withShadow, resync, deriveShadow, naturalKeys, key, columns]

/-- The shadow of a base is made from the base at its turn, under the number of its place. -/
theorem exists_atTurn (accepted : ofDocument doc = .ok c) (listed : b ∈ doc.bases) :
    ∃ base, doc.AtTurn c b base ∧
    c.get? (shadowKey b) = some (withShadow base (doc.declared.numberAfter (doc.generated.idxOf b))
      (doc.linked.get? (shadowKey b))) := by
  have distinct := CatalogDocument.bases_nodup (declared_distinctKeys accepted)
  obtain ⟨before, after, split⟩ := List.append_of_mem listed
  obtain ⟨base, atTurn, made⟩ := (takeTurns_of_ofDocument accepted).shadows before b after split
  rw [split] at distinct
  have early : b ∈ before.map shadowKey ↔ doc.MadeBefore b := by
    rw [List.mem_map, CatalogDocument.MadeBefore]
    refine exists_congr fun b' => ?_
    rw [mem_before_iff distinct, CatalogDocument.Early, split, eq_comm, and_comm]
    refine and_congr_right fun same => ?_
    rw [same]
  refine ⟨base, ?_, ?_⟩
  · rw [CatalogDocument.AtTurn, ← early]
    by_cases there : b ∈ before.map shadowKey
    · exact .inl ⟨there, (if_pos there).symm.trans atTurn⟩
    · exact .inr ⟨there, (if_neg there).symm.trans atTurn⟩
  · rw [made]
    cases declared : doc.linked.get? (shadowKey b) with
    | some e => rfl
    | none =>
      have fresh : b ∉ doc.declared.generatedOf before := fun there =>
        (List.nodup_append.mp distinct).2.2 b (List.mem_filter.mp there).1 b List.mem_cons_self rfl
      have ofTurn : (doc.declared.get? (shadowKey b)).isNone = true := by
        rw [CatalogDocument.get?_linked, Option.map_eq_none_iff] at declared
        rw [declared]
        rfl
      have parts : doc.generated = doc.declared.generatedOf before ++
          b :: doc.declared.generatedOf after := by
        rw [CatalogDocument.generated, split, generatedOf, List.filter_append, List.filter_cons,
          if_pos ofTurn]
        rfl
      have place : doc.generated.idxOf b = (doc.declared.generatedOf before).length := by
        rw [parts, List.idxOf_append_of_notMem fresh, List.idxOf_cons_self, Nat.add_zero]
      rw [place, CatalogDocument.generatedOf_linked, numberAfter, numberAfter,
        CatalogDocument.largestId_linked]

/-- What a base is at its turn has the key and the former names that were declared. -/
theorem of_atTurn (accepted : ofDocument doc = .ok c) (listed : b ∈ doc.bases) {base : Dataset}
    (atTurn : doc.AtTurn c b base) :
    ∃ e, doc.linked.get? b = some e ∧ base.key = e.key ∧ base.formerNames = e.formerNames := by
  have there : ∃ e, doc.linked.get? b = some e := by
    obtain ⟨d, declared, rfl⟩ := CatalogDocument.declared_of_mem_bases listed
    have distinct := declared_distinctKeys accepted
    exact ⟨_, (CatalogDocument.get?_linked d.key).trans
      (congrArg (Option.map _) (distinct.get? declared))⟩
  obtain ⟨e, there⟩ := there
  refine ⟨e, there, ?_⟩
  rcases atTurn with ⟨⟨b', rfl, early⟩, found⟩ | ⟨_, found⟩
  · have listed' : b' ∈ doc.bases := early.subset List.mem_cons_self
    obtain ⟨base', _, made⟩ := exists_atTurn accepted listed'
    rw [there] at made
    obtain rfl := Option.some.inj (made.symm.trans found)
    exact ⟨rfl, rfl⟩
  · obtain rfl := Option.some.inj (there.symm.trans found)
    exact ⟨rfl, rfl⟩

/-- A base meets one dataset under its shadow's key, or none. -/
private theorem atTurn_unique {x y : Dataset} (atTurn : doc.AtTurn c b x)
    (atTurn' : doc.AtTurn c b y) : x = y := by
  rcases atTurn with ⟨made, found⟩ | ⟨unmade, found⟩
  · rcases atTurn' with ⟨_, found'⟩ | ⟨unmade, _⟩
    · exact Option.some.inj (found.symm.trans found')
    · exact absurd made unmade
  · rcases atTurn' with ⟨made, _⟩ | ⟨_, found'⟩
    · exact absurd made unmade
    · exact Option.some.inj (found.symm.trans found')

section

variable (accepted : ofDocument doc = .ok c) (accepted' : ofDocument doc' = .ok c')
    (reorders : doc.Reorders doc')

include accepted accepted' reorders

/-- The shadow of a base is the same in both orders if the base at its turn has the same history in
both, and if the place of a generated shadow gives it the same number. -/
theorem get?_shadowKey_eq_iff (listed : b ∈ doc.bases) {base base' : Dataset}
    (atTurn : doc.AtTurn c b base) (atTurn' : doc'.AtTurn c' b base') :
    c.get? (shadowKey b) = c'.get? (shadowKey b) ↔ base.SameHistory base' ∧
      (b ∈ doc.generated → doc.declared.numberAfter (doc.generated.idxOf b) =
        doc.declared.numberAfter (doc'.generated.idxOf b)) := by
  have distinct := declared_distinctKeys accepted
  have listed' : b ∈ doc'.bases := reorders.bases.mem_iff.mp listed
  obtain ⟨_, turn, made⟩ := exists_atTurn accepted listed
  obtain rfl := atTurn_unique turn atTurn
  obtain ⟨_, turn', made'⟩ := exists_atTurn accepted' listed'
  obtain rfl := atTurn_unique turn' atTurn'
  obtain ⟨e, there, key, formerNames⟩ := of_atTurn accepted listed turn
  obtain ⟨e', there', key', formerNames'⟩ := of_atTurn accepted' listed' turn'
  rw [← reorders.get?_linked distinct] at there' made'
  obtain rfl := Option.some.inj (there.symm.trans there')
  have numbers (n : Nat) : doc'.declared.numberAfter n = doc.declared.numberAfter n := by
    rw [numberAfter, numberAfter, reorders.largestId]
  rw [made, made', Option.some.injEq,
    withShadow_eq_iff (key.trans key'.symm) (formerNames.trans formerNames'.symm),
    numbers, mem_generated_iff, and_iff_right listed]

/-- What is called like no generated or declared shadow of a base is the same in both orders. -/
theorem get?_eq_of_others {k : DatasetKey} (others : ∀ b ∈ doc.bases, k ≠ shadowKey b) :
    c.get? k = c'.get? k := by
  have distinct := declared_distinctKeys accepted
  rw [(takeTurns_of_ofDocument accepted).others k others, reorders.get?_linked distinct]
  refine ((takeTurns_of_ofDocument accepted').others k fun b listed => ?_).symm
  exact others b (reorders.bases.mem_iff.mpr listed)

end

/-- The numbers of the generated shadows are the same if these come in the same order. -/
theorem numbers_eq_iff (accepted : ofDocument doc = .ok c) (reorders : doc.Reorders doc') :
    doc.generated = doc'.generated ↔
      ∀ b ∈ doc.generated, doc.declared.numberAfter (doc.generated.idxOf b) =
        doc.declared.numberAfter (doc'.generated.idxOf b) := by
  have distinct := declared_distinctKeys accepted
  have nodup : doc.generated.Nodup := (CatalogDocument.bases_nodup distinct).filter _
  have perm := reorders.generated distinct
  have bound := largestId_add_generated_lt accepted
  rw [eq_iff_idxOf nodup perm]
  refine forall₂_congr fun b there => ?_
  have place : doc.generated.idxOf b < doc.generated.length := List.idxOf_lt_length_of_mem there
  have place' : doc'.generated.idxOf b < doc.generated.length := by
    rw [perm.length_eq]
    exact List.idxOf_lt_length_of_mem (perm.mem_iff.mp there)
  rw [← UInt32.toNat_inj, toNat_numberAfter (by omega), toNat_numberAfter (by omega)]
  omega

/-! ### Fingerprints of reordered documents -/

/-- A shadow's key is made before the turn of its base just if it is declared early. -/
private theorem madeBefore_shadowKey : doc.MadeBefore (shadowKey b) ↔ doc.Early b := by
  constructor
  · rintro ⟨b', same, early⟩
    exact shadowKey_injective same ▸ early
  · exact fun early => ⟨b, rfl, early⟩

/-- What is linked to its query tree has the same history as before. -/
theorem exists_declared {k : DatasetKey} {e : Dataset} (there : doc.linked.get? k = some e) :
    ∃ d, doc.declared.get? k = some d ∧ e.SameHistory d := by
  rw [CatalogDocument.get?_linked] at there
  obtain ⟨d, declared, rfl⟩ := Option.map_eq_some_iff.mp there
  refine ⟨d, declared, ?_⟩
  rw [linkSources_eq]
  exact ⟨rfl, rfl⟩

/-- To link a dataset does not touch what its history is derived from. -/
private theorem sameHistory_of_linked {k : DatasetKey} {d e : Dataset}
    (declared : doc.declared.get? k = some d) (there : doc.linked.get? k = some e) :
    e.SameHistory d := by
  obtain ⟨d', declared', history⟩ := exists_declared there
  obtain rfl := Option.some.inj (declared.symm.trans declared')
  exact history

section

variable (accepted : ofDocument doc = .ok c) (accepted' : ofDocument doc' = .ok c')
    (reorders : doc.Reorders doc')

include accepted accepted' reorders

/-- If the catalogs are the same, the order of turns does not show in the history of a shadow. -/
theorem sameHistory_of_get?_eq (same : ∀ k, c.get? k = c'.get? k) (listed : shadowKey b ∈ doc.bases)
    (turned : doc.Early b ↔ ¬ doc'.Early b) :
    ∃ d s, doc.declared.get? (shadowKey b) = some d ∧ c.get? (shadowKey b) = some s ∧
      s.SameHistory d := by
  have distinct := declared_distinctKeys accepted
  obtain ⟨base, atTurn, _⟩ := exists_atTurn accepted listed
  obtain ⟨base', atTurn', _⟩ := exists_atTurn accepted' (reorders.bases.mem_iff.mp listed)
  have history :=
    ((get?_shadowKey_eq_iff accepted accepted' reorders listed atTurn atTurn').mp (same _)).1
  rcases atTurn with ⟨made, found⟩ | ⟨unmade, found⟩
  · rcases atTurn' with ⟨made', _⟩ | ⟨_, found'⟩
    · exact absurd (madeBefore_shadowKey.mp made') (turned.mp (madeBefore_shadowKey.mp made))
    · rw [← reorders.get?_linked distinct] at found'
      obtain ⟨d, declared, history'⟩ := exists_declared found'
      exact ⟨d, base, declared, found, history.trans history'⟩
  · rcases atTurn' with ⟨_, found'⟩ | ⟨unmade', _⟩
    · obtain ⟨d, declared, history'⟩ := exists_declared found
      exact ⟨d, base', declared, (same _).trans found', history.symm.trans history'⟩
    · rw [madeBefore_shadowKey] at unmade unmade'
      exact absurd (turned.mpr unmade') unmade

section

variable (turns : ∀ b ∈ doc.bases, shadowKey b ∈ doc.bases → (doc.Early b ↔ ¬ doc'.Early b) →
  ∃ d s, doc.declared.get? (shadowKey b) = some d ∧ c.get? (shadowKey b) = some s ∧ s.SameHistory d)

include turns

omit accepted' in
/-- If the order of turns does not show, a base that is the same in both catalogs has the same
history at its turn. -/
theorem sameHistory_atTurn (listed : b ∈ doc.bases) (known : c.get? b = c'.get? b)
    {base base' : Dataset} (atTurn : doc.AtTurn c b base) (atTurn' : doc'.AtTurn c' b base') :
    base.SameHistory base' := by
  have distinct := declared_distinctKeys accepted
  rcases atTurn with ⟨⟨b', rfl, early⟩, found⟩ | ⟨unmade, found⟩
  · rcases atTurn' with ⟨_, found'⟩ | ⟨unmade', found'⟩
    · obtain rfl := Option.some.inj (found.symm.trans (known.trans found'))
      exact ⟨rfl, rfl⟩
    · rw [madeBefore_shadowKey] at unmade'
      obtain ⟨d, s, declared, final, history⟩ :=
        turns b' (early.subset List.mem_cons_self) listed (iff_of_true early unmade')
      obtain rfl := Option.some.inj (final.symm.trans found)
      rw [← reorders.get?_linked distinct] at found'
      exact history.trans (sameHistory_of_linked declared found').symm
  · rcases atTurn' with ⟨⟨b', rfl, early'⟩, found'⟩ | ⟨_, found'⟩
    · rw [madeBefore_shadowKey] at unmade
      have listed' : b' ∈ doc.bases := reorders.bases.mem_iff.mpr (early'.subset List.mem_cons_self)
      obtain ⟨d, s, declared, final, history⟩ :=
        turns b' listed' listed (iff_of_false unmade (not_not_intro early'))
      obtain rfl := Option.some.inj (final.symm.trans (known.trans found'))
      exact (sameHistory_of_linked declared found).trans history.symm
    · rw [← reorders.get?_linked distinct] at found'
      obtain rfl := Option.some.inj (found.symm.trans found')
      exact ⟨rfl, rfl⟩

/-- If the numbers are the same and the order of turns does not show, the catalogs are the same. The
induction is on the length of the name, since a shadow is called by more than its base. -/
theorem get?_eq_of_sameHistory
    (numbers : ∀ b ∈ doc.generated, doc.declared.numberAfter (doc.generated.idxOf b) =
      doc.declared.numberAfter (doc'.generated.idxOf b)) (k : DatasetKey) :
    c.get? k = c'.get? k := by
  induction length : k.name.length using Nat.strong_induction_on generalizing k with
  | _ n ih =>
    by_cases named : ∃ b ∈ doc.bases, k = shadowKey b
    · obtain ⟨b, listed, rfl⟩ := named
      have shorter : b.name.length < n := by
        have suffix : 0 < shadowSuffix.length := by decide
        have longer : (shadowKey b).name.length = b.name.length + shadowSuffix.length :=
          String.length_append _ _
        omega
      have known : c.get? b = c'.get? b := ih _ shorter b rfl
      obtain ⟨base, atTurn, _⟩ := exists_atTurn accepted listed
      obtain ⟨base', atTurn', _⟩ := exists_atTurn accepted' (reorders.bases.mem_iff.mp listed)
      refine (get?_shadowKey_eq_iff accepted accepted' reorders listed atTurn atTurn').mpr
        ⟨?_, numbers b⟩
      exact sameHistory_atTurn accepted reorders turns listed known atTurn atTurn'
    · exact get?_eq_of_others accepted accepted' reorders fun b listed same =>
        named ⟨b, listed, same⟩

end

end

/-- Two documents that differ in the order of their datasets give catalogs with the same text just
if the generated shadows come in the same order, and if a declared shadow that gets a shadow itself
has the same history before and after it is made a shadow, where the one document has its turn
before and the other after that of its base. -/
theorem fingerprintText_eq_iff_of_reorders (accepted : ofDocument doc = .ok c)
    (accepted' : ofDocument doc' = .ok c') (reorders : doc.Reorders doc') (legible : doc.Legible) :
    c.fingerprintText = c'.fingerprintText ↔ doc.generated = doc'.generated ∧
      ∀ b ∈ doc.bases, shadowKey b ∈ doc.bases → (doc.Early b ↔ ¬ doc'.Early b) →
        ∃ d s, doc.declared.get? (shadowKey b) = some d ∧ c.get? (shadowKey b) = some s ∧
          s.SameHistory d := by
  have all := syncedAll_of_ofDocument accepted
  have all' := syncedAll_of_ofDocument accepted'
  have distinct := declared_distinctKeys accepted
  rw [fingerprintText_eq_iff all.distinct (legible_of_ofDocument accepted legible)
    (legible_of_ofDocument accepted' (reorders.legible legible)),
    perm_iff_get?_eq all.distinct all'.distinct, numbers_eq_iff accepted reorders]
  constructor
  · intro same
    refine ⟨fun b fresh => ?_, fun b _ listed =>
      sameHistory_of_get?_eq accepted accepted' reorders same listed⟩
    have listed : b ∈ doc.bases := (mem_generated_iff.mp fresh).1
    obtain ⟨base, atTurn, _⟩ := exists_atTurn accepted listed
    obtain ⟨base', atTurn', _⟩ := exists_atTurn accepted' (reorders.bases.mem_iff.mp listed)
    exact ((get?_shadowKey_eq_iff accepted accepted' reorders listed atTurn atTurn').mp
      (same _)).2 fresh
  · rintro ⟨numbers, turns⟩
    exact get?_eq_of_sameHistory accepted accepted' reorders turns numbers

/-! ### Customers and suppliers -/

/-- The suppliers, kept like the customers. -/
def suppliers : Dataset := { customers with id := 3, name := "suppliers" }

/-- A document of the customers as they come in, and of what is kept. -/
def keptDocument (kept : List Dataset) : CatalogDocument :=
  { customersDocument [] [] with datasets := stagedCustomers :: kept }

/-- A catalog with these datasets. -/
def keptCatalog (kept : List Dataset) : Catalog :=
  { (keptDocument []).declared with datasets := stagedCustomers :: kept }

private theorem legible_keptDocument {kept : List Dataset}
    (inputs : ∀ d ∈ kept, ∀ k ∈ d.references, k = arrivedCustomers) :
    (keptDocument kept).Legible := by
  refine ⟨fun d declared k named => ?_, nofun⟩
  have plain : arrivedCustomers.Plain := ⟨by simp [arrivedCustomers], by simp [arrivedCustomers]⟩
  rcases List.mem_cons.mp declared with rfl | listed
  · cases named
  · rw [inputs d listed k named]
    exact plain

/-- Letters that are kept, of which nothing is declared yet. -/
def keptLetters : Dataset :=
  { stagedCustomers with
    id := 2
    schema := "core"
    name := "letters"
    strategy := .historize
    columns := [] }

/-- The history of the letters, declared as if it were none and itself to be kept. -/
def keptHistory : Dataset := { keptLetters with id := 3, name := "letters_hist" }

/-- The same as the shadow of the letters. -/
def madeHistory : Dataset := resync keptLetters.key (deriveShadow keptLetters 4) keptHistory

/-- With the letters in front, the history is derived before it is a base itself. -/
theorem ofDocument_history_last : ofDocument (keptDocument [keptLetters, keptHistory]) =
    .ok (keptCatalog [keptLetters, madeHistory, deriveShadow madeHistory 4]) := by
      with_unfolding_all rfl

/-- With the history in front, its own shadow is derived from what is declared. -/
theorem ofDocument_history_first : ofDocument (keptDocument [keptHistory, keptLetters]) =
    .ok (keptCatalog [madeHistory, keptLetters, deriveShadow keptHistory 4]) := by
      with_unfolding_all rfl

private theorem sameHistory_madeHistory : madeHistory.SameHistory keptHistory := by
  have none {d : Dataset} (added : ∀ c ∈ d.columns, c.isBusiness = false) :
      d.businessColumns = [] :=
    List.filter_eq_nil_iff.mpr fun c member => by simp [added c (mem_orderedColumns.mp member)]
  have declared : keptLetters.businessColumns = [] ∧ keptHistory.businessColumns = [] :=
    ⟨none nofun, none nofun⟩
  have made : ∀ c ∈ madeHistory.columns, c.isBusiness = false := by
    change ∀ c ∈ shadowColumns keptLetters, c.isBusiness = false
    rw [shadowColumns, declared.1]
    decide
  refine ⟨?_, rfl⟩
  rw [shadowColumns, shadowColumns, none made, declared.2]
  rfl

/-- The history of the letters gets its shadow after or before it is made the shadow of the letters.
Neither has business columns, so that this does not show. -/
theorem history_in_any_order :
    ofDocument (keptDocument [keptLetters, keptHistory]) =
        .ok (keptCatalog [keptLetters, madeHistory, deriveShadow madeHistory 4]) ∧
      ofDocument (keptDocument [keptHistory, keptLetters]) =
        .ok (keptCatalog [madeHistory, keptLetters, deriveShadow keptHistory 4]) ∧
      (keptDocument [keptLetters, keptHistory]).Reorders (keptDocument [keptHistory, keptLetters]) ∧
      (keptCatalog [keptLetters, madeHistory, deriveShadow madeHistory 4]).fingerprintText =
        (keptCatalog [madeHistory, keptLetters, deriveShadow keptHistory 4]).fingerprintText := by
  have reorders : (keptDocument [keptLetters, keptHistory]).Reorders
      (keptDocument [keptHistory, keptLetters]) :=
    ⟨rfl, rfl, (List.Perm.swap keptHistory keptLetters []).cons stagedCustomers⟩
  have legible : (keptDocument [keptLetters, keptHistory]).Legible :=
    legible_keptDocument (by decide)
  refine ⟨ofDocument_history_last, ofDocument_history_first, reorders,
    (fingerprintText_eq_iff_of_reorders ofDocument_history_last ofDocument_history_first reorders
      legible).mpr ⟨?_, fun b listed chained _ => ?_⟩⟩
  · have generated : (keptDocument [keptLetters, keptHistory]).generated =
      [keptHistory.key] := by decide
    have generated' : (keptDocument [keptHistory, keptLetters]).generated =
      [keptHistory.key] := by decide
    rw [generated, generated']
  · have only : ∀ b ∈ (keptDocument [keptLetters, keptHistory]).bases,
        shadowKey b ∈ (keptDocument [keptLetters, keptHistory]).bases →
        b = keptLetters.key := by decide
    rw [only b listed chained]
    exact ⟨keptHistory, madeHistory, rfl, rfl, sameHistory_madeHistory⟩

/-- The customers before the suppliers or behind them: their shadows have other numbers. -/
theorem not_always_in_any_order :
    ¬ ∀ doc doc' c c', ofDocument doc = .ok c → ofDocument doc' = .ok c' → doc.Reorders doc' →
      c.fingerprintText = c'.fingerprintText := by
  intro always
  have first : ofDocument (keptDocument [customers, suppliers]) =
      .ok (keptCatalog [customers, suppliers, deriveShadow customers 4,
        deriveShadow suppliers 5]) := by with_unfolding_all rfl
  have second : ofDocument (keptDocument [suppliers, customers]) =
      .ok (keptCatalog [suppliers, customers, deriveShadow suppliers 4,
        deriveShadow customers 5]) := by with_unfolding_all rfl
  have same := always _ _ _ _ first second
    ⟨rfl, rfl, (List.Perm.swap suppliers customers []).cons stagedCustomers⟩
  have perm :=
    perm_of_fingerprintText_eq (legible_of_ofDocument first (legible_keptDocument (by decide)))
      (legible_of_ofDocument second (legible_keptDocument (by decide))) same
  have there : deriveShadow customers 4 ∈ stagedCustomers ::
      [customers, suppliers, deriveShadow customers 4, deriveShadow suppliers 5] := by simp
  have number : ∀ d ∈ stagedCustomers ::
      [suppliers, customers, deriveShadow suppliers 4, deriveShadow customers 5],
      d.name = "customers_hist" → d.id = 5 := by decide
  exact absurd (number _ (perm.mem_iff.mp there) (by decide)) (by decide)

end Catalog

end Warehouse
