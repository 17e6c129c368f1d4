/-
Module: Warehouse.Proofs.Catalog.Document
Purpose: What holds of every catalog that a document describes: its datasets have distinct keys, all
  that they read is in it, what a query tree reads is an input of its dataset, and every dataset
  that wants history has its shadow. Each step from the document to the catalog keeps what the steps
  before it have brought about.
Trusted boundary: none
Main exports: Catalog.Sound, get_eq_ok_iff, insertAll_eq_ok_iff, linkQuerySources_eq_ok_iff,
  Catalog.largestId, nextId_eq_ok_iff, Catalog.Turn, syncShadow_eq_ok_iff, Synced,
  synced_of_syncShadow, sound_of_ofDocument
-/
import Mathlib.Data.List.Nodup
import Warehouse.Proofs.Catalog.Shadow
import Warehouse.Proofs.Results

namespace Warehouse

/-- The key of the shadow of the dataset of that key. -/
def shadowKey (base : DatasetKey) : DatasetKey := ⟨base.schema, base.name ++ shadowSuffix⟩

/-- Datasets with one shadow key are one dataset, since the suffix can be cut off again. -/
theorem shadowKey_injective {a b : DatasetKey} (same : shadowKey a = shadowKey b) : a = b := by
  obtain ⟨schema, name⟩ := DatasetKey.mk.inj same
  cases a
  cases b
  exact DatasetKey.mk.injEq .. ▸ ⟨schema, (String.append_left_inj shadowSuffix).mp name⟩

/-- A shadow of a dataset goes by the shadow key of that dataset. -/
theorem Dataset.IsShadowOf.key {d base : Dataset} (shadow : d.IsShadowOf base) :
    d.key = shadowKey base.key := by
  rw [Dataset.key, shadow.schema, shadow.name]
  rfl

theorem Dataset.IsShadowOf.isShadow {d base : Dataset} (shadow : d.IsShadowOf base) :
    d.isShadow = true := by
  rw [Dataset.isShadow, shadow.histOf]
  rfl

namespace Catalog

/-- No two datasets have one key. -/
def DistinctKeys (c : Catalog) : Prop := (c.datasets.map Dataset.key).Nodup

/-- Whether the history of `base` is kept by a dataset that reads it. -/
def HasShadow (c : Catalog) (base : Dataset) : Prop :=
  ∃ s ∈ c.datasets, s.IsShadowOf base ∧ base.key ∈ s.inputs

/-- Whether what the query tree of a dataset reads is among its inputs. -/
def ReadsItsTree (g : QueryGraph) (d : Dataset) : Prop :=
  ∀ root, d.queryRoot? = some root → g.sourceDatasets root ⊆ d.inputs

/-- What holds of a catalog that a document describes. -/
structure Sound (c : Catalog) : Prop where
  distinct : c.DistinctKeys
  known : ∀ d ∈ c.datasets, ∀ u ∈ d.inputs, ∃ e ∈ c.datasets, e.key = u
  linked : ∀ d ∈ c.datasets, ReadsItsTree c.queryGraph d
  shadowed : ∀ d ∈ c.datasets, d.isShadow = false → c.wantsHistory d = true → c.HasShadow d

/-! ### Finding datasets -/

section

variable {c c' : Catalog}

/-- A catalog contains a key exactly if it has a dataset of that key. -/
theorem contains_iff {key : DatasetKey} : c.contains key = true ↔
    ∃ d ∈ c.datasets, d.key = key := by
  rw [contains, get?, List.find?_isSome]
  simp only [decide_eq_true_eq]

/-- What is found under a key is a dataset of the catalog, and has that key. -/
theorem of_get? {key : DatasetKey} {d : Dataset} (found : c.get? key = some d) :
    d ∈ c.datasets ∧ d.key = key := by
  rw [get?] at found
  exact ⟨List.mem_of_find?_eq_some found, by simpa using List.find?_some found⟩

theorem get_eq_ok_iff {key : DatasetKey} {d : Dataset} : c.get key = .ok d ↔
    c.get? key = some d := by
  rw [get]
  cases c.get? key <;> simp

/-- In a catalog with distinct keys, a key stands for one dataset. -/
theorem DistinctKeys.eq (distinct : c.DistinctKeys) {d e : Dataset} (hd : d ∈ c.datasets)
    (he : e ∈ c.datasets) (same : d.key = e.key) : d = e :=
  List.inj_on_of_nodup_map distinct hd he same

/-- Each dataset is found under its own key, since no other has it. -/
theorem DistinctKeys.get? (distinct : c.DistinctKeys) {d : Dataset} (member : d ∈ c.datasets) :
    c.get? d.key = some d := by
  have there : c.contains d.key = true := contains_iff.mpr ⟨d, member, rfl⟩
  obtain ⟨e, found⟩ := Option.isSome_iff_exists.mp there
  obtain ⟨member', same⟩ := of_get? found
  rw [found, distinct.eq member' member same]

/-! ### Adding datasets -/

theorem schema?_isNone_iff {name : String} : (c.schema? name).isNone = true ↔
    ¬ ∃ s ∈ c.schemas, s.name = name := by
  rw [schema?, Option.isNone_iff_eq_none, List.find?_eq_none]
  simp

/-- A dataset can be added exactly if its schema is declared and its key is not taken; it is added
at the end. -/
theorem insert_eq_ok_iff {d : Dataset} :
    c.insert d = .ok c' ↔ (∃ s ∈ c.schemas, s.name = d.schema) ∧
    (¬ ∃ e ∈ c.datasets, e.key = d.key) ∧
      c' = { c with datasets := c.datasets ++ [d] } := by
  rw [insert]
  by_cases schema : ∃ s ∈ c.schemas, s.name = d.schema
  · rw [if_neg fun none => schema?_isNone_iff.mp none schema]
    by_cases old : ∃ e ∈ c.datasets, e.key = d.key
    · rw [if_pos (contains_iff.mpr old)]
      exact ⟨nofun, fun added => absurd old added.2.1⟩
    · rw [if_neg fun there => old (contains_iff.mp there), Except.ok.injEq, eq_comm]
      exact ⟨fun same => ⟨schema, old, same⟩, fun added => added.2.2⟩
  · rw [if_pos (schema?_isNone_iff.mpr schema)]
    exact ⟨nofun, fun added => absurd added.1 schema⟩

private theorem distinctKeys_append_iff {d : Dataset} :
    ((c.datasets ++ [d]).map Dataset.key).Nodup ↔
      c.DistinctKeys ∧ ¬ ∃ e ∈ c.datasets, e.key = d.key := by
  rw [List.map_append, List.nodup_append, List.map_singleton, DistinctKeys]
  simp

/-- Datasets are added if their schemas are declared and all keys are distinct. -/
theorem insertAll_eq_ok_iff {ds : List Dataset} (distinct : c.DistinctKeys) :
    c.insertAll ds = .ok c' ↔
      (∀ d ∈ ds, ∃ s ∈ c.schemas, s.name = d.schema) ∧ ((c.datasets ++ ds).map Dataset.key).Nodup ∧
        c' = { c with datasets := c.datasets ++ ds } := by
  induction ds generalizing c with
  | nil =>
    rw [insertAll, List.append_nil, Except.ok.injEq, eq_comm]
    exact ⟨fun same => ⟨fun _ none => absurd none List.not_mem_nil, distinct, same⟩,
      fun added => added.2.2⟩
  | cons d rest ih =>
    have split : c.datasets ++ d :: rest = (c.datasets ++ [d]) ++ rest := (List.append_cons ..)
    rw [insertAll, bind_eq_ok_iff, List.forall_mem_cons, split]
    have later := ih (c := { c with datasets := c.datasets ++ [d] })
    constructor
    · rintro ⟨c₁, first, others⟩
      obtain ⟨schema, fresh, rfl⟩ := insert_eq_ok_iff.mp first
      obtain ⟨schemas, distinct', rfl⟩ :=
        (later (distinctKeys_append_iff.mpr ⟨distinct, fresh⟩)).mp others
      exact ⟨⟨schema, schemas⟩, distinct', rfl⟩
    · rintro ⟨⟨schema, schemas⟩, distinct', rfl⟩
      have first : ((c.datasets ++ [d]).map Dataset.key).Nodup := by
        rw [List.map_append] at distinct'
        exact distinct'.of_append_left
      refine ⟨_, insert_eq_ok_iff.mpr ⟨schema, (distinctKeys_append_iff.mp first).2, rfl⟩, ?_⟩
      exact (later first).mpr ⟨schemas, distinct', rfl⟩

/-! ### Query trees -/

/-- Keys are added one by one, each unless it is there already. -/
theorem addMissing_cons (keys : List DatasetKey) (k : DatasetKey) (more : List DatasetKey) :
    addMissing keys (k :: more) =
      addMissing (if keys.contains k then keys else keys ++ [k]) more := rfl

/-- Nothing is lost when keys are added, and all of them are there afterwards. -/
theorem mem_addMissing {keys more : List DatasetKey} {k : DatasetKey} :
    k ∈ addMissing keys more ↔ k ∈ keys ∨ k ∈ more := by
  induction more generalizing keys with
  | nil => simp [addMissing]
  | cons m rest ih =>
    rw [addMissing_cons, ih, List.mem_cons]
    by_cases old : m ∈ keys
    · rw [if_pos (List.contains_iff_mem.mpr old)]
      constructor
      · exact fun h => h.imp_right .inr
      · rintro (here | rfl | later)
        · exact .inl here
        · exact .inl old
        · exact .inr later
    · rw [if_neg (fun h => old (List.contains_iff_mem.mp h)), List.mem_append,
        List.mem_singleton, or_assoc]

/-- To link what a query tree reads does not change which dataset it is. -/
theorem linkSources_key (g : QueryGraph) (d : Dataset) : (linkSources g d).key = d.key := by
  rw [linkSources]
  split <;> rfl

/-- A dataset that is linked has all that its query tree reads among its inputs. -/
theorem readsItsTree_linkSources (g : QueryGraph) (d : Dataset) :
    ReadsItsTree g (linkSources g d) := by
  intro root tree k source
  rw [linkSources] at tree ⊢
  split at tree
  · next none =>
    rw [none] at tree
    cases tree
  · next root' some =>
    rw [some] at tree
    cases tree
    exact mem_addMissing.mpr (.inr source)

theorem keys_linkSources (g : QueryGraph) (ds : List Dataset) :
    (ds.map (linkSources g)).map Dataset.key = ds.map Dataset.key := by
  rw [List.map_map]
  exact List.map_congr_left fun d _ => linkSources_key g d

/-- Query trees are linked to datasets if what their nodes name is there. -/
theorem linkQuerySources_eq_ok_iff :
    c.linkQuerySources = .ok c' ↔
      (∀ id key, (id, key) ∈ c.queryGraph.references → ∃ d ∈ c.datasets, d.key = key) ∧
        c' = { c with datasets := c.datasets.map (linkSources c.queryGraph) } := by
  have none_iff : c.danglingReference? = none ↔
      ∀ id key, (id, key) ∈ c.queryGraph.references → ∃ d ∈ c.datasets, d.key = key := by
    rw [danglingReference?, List.find?_eq_none]
    simp only [Bool.not_eq_true, Bool.not_eq_false', contains_iff, Prod.forall]
  rw [linkQuerySources, ← none_iff]
  cases c.danglingReference? with
  | none => rw [Except.ok.injEq, eq_comm, and_iff_right rfl]
  | some p => exact ⟨nofun, fun linked => nomatch linked.1⟩

/-! ### Numbers -/

/-- The largest number of a dataset. -/
def largestId (c : Catalog) : Nat := (c.datasets.map fun d => d.id.toNat).foldl max 0

/-- A running maximum is within a bound exactly if the start and all numbers are. -/
private theorem foldl_max_le_iff {ids : List Nat} {m n : Nat} :
    ids.foldl max m ≤ n ↔ m ≤ n ∧ ∀ i ∈ ids, i ≤ n := by
  induction ids generalizing m with
  | nil => simp
  | cons i ids ih => rw [List.foldl_cons, ih, Nat.max_le, List.forall_mem_cons, and_assoc]

/-- The largest number is within a bound exactly if all numbers are. -/
theorem largestId_le_iff {n : Nat} : c.largestId ≤ n ↔ ∀ d ∈ c.datasets, d.id.toNat ≤ n := by
  rw [largestId, foldl_max_le_iff, List.forall_mem_map]
  exact and_iff_right (Nat.zero_le n)

/-- The largest number fits in 32 bits, as each number does. -/
theorem largestId_lt (c : Catalog) : c.largestId < UInt32.size := by
  have bounded : c.largestId ≤ UInt32.size - 1 :=
    largestId_le_iff.mpr fun d _ => Nat.le_pred_of_lt d.id.toNat_lt
  exact Nat.lt_of_le_pred (by decide) bounded

/-- The largest of some numbers of 32 bits is the largest of what they stand for. -/
theorem toNat_foldl_max (ds : List Dataset) (m : UInt32) :
    (ds.foldl (fun m d => max m d.id) m).toNat =
      (ds.map fun d => d.id.toNat).foldl max m.toNat := by
  have larger (a b : UInt32) : (max a b).toNat = max a.toNat b.toNat := by
    rw [show max a b = if a ≤ b then b else a from rfl]
    split
    · next more => exact (Nat.max_eq_right (UInt32.le_iff_toNat_le.mp more)).symm
    · next less =>
      have less : ¬ a.toNat ≤ b.toNat := fun more => less (UInt32.le_iff_toNat_le.mpr more)
      exact (Nat.max_eq_left (Nat.le_of_not_le less)).symm
  induction ds generalizing m with
  | nil => rfl
  | cons d ds ih => rw [List.foldl_cons, ih, List.map_cons, List.foldl_cons, larger]

/-- The maximum that is computed in 32 bits is the largest number. -/
theorem toNat_lastId (c : Catalog) : c.lastId.toNat = c.largestId := toNat_foldl_max c.datasets 0

/-- The next number follows the largest one of a dataset, and is one of 32 bits. -/
theorem nextId_eq_ok_iff {number : UInt32} : c.nextId = .ok number ↔
    c.largestId + 1 < UInt32.size ∧ number.toNat = c.largestId + 1 := by
  rw [nextId, toNat_lastId]
  by_cases fits : c.largestId + 1 < UInt32.size
  · have sum : (c.lastId + 1).toNat = c.largestId + 1 := by
      rw [UInt32.toNat_add, toNat_lastId]
      exact Nat.mod_eq_of_lt fits
    rw [if_pos fits, Except.ok.injEq, ← UInt32.toNat_inj, sum, and_iff_right fits, eq_comm]
  · rw [if_neg fits]
    exact iff_of_false nofun fun both => fits both.1

/-- If no number follows the largest one, there is no next number. -/
theorem nextId_eq_error (full : ¬ c.largestId + 1 < UInt32.size) :
    c.nextId = .error .numbersExhausted := by
  rw [nextId, toNat_lastId, if_neg full]

/-! ### Turns

The datasets that want history have their turns one after another. All that holds of a turn is read
off `Turn`, and so of the step of the computation nothing else is opened below.
-/

/-- The shadow of a dataset goes by its shadow key, whatever number it gets. -/
theorem key_deriveShadow (base : Dataset) (number : UInt32) :
    (deriveShadow base number).key = shadowKey base.key :=
  (deriveShadow_isShadowOf base number).key

/-- What becomes of a catalog at the turn of `base`: its declared shadow is brought up to date, or
one is generated under that number. -/
inductive Turn (c : Catalog) (base : Dataset) (number : UInt32) : Catalog → Prop where
  | updated (declared : ∃ e ∈ c.datasets, e.key = shadowKey base.key) :
      Turn c base number { c with
        datasets := c.datasets.map fun d =>
          if d.key = shadowKey base.key then resync base.key (deriveShadow base number) d else d }
  | generated (schema : ∃ s ∈ c.schemas, s.name = base.schema)
      (absent : ¬ ∃ e ∈ c.datasets, e.key = shadowKey base.key) :
      Turn c base number { c with datasets := c.datasets ++ [deriveShadow base number] }

/-- A turn succeeds if there is a next number, whether it is needed or not, and the base is
there. -/
theorem syncShadow_eq_ok_iff {key : DatasetKey} : c.syncShadow key = .ok c' ↔
    ∃ number base, c.nextId = .ok number ∧ c.get? key = some base ∧ c.Turn base number c' := by
  constructor
  · intro sync
    obtain ⟨number, next, sync⟩ := bind_eq_ok_iff.mp sync
    obtain ⟨base, found, sync⟩ := bind_eq_ok_iff.mp sync
    have found := get_eq_ok_iff.mp found
    obtain ⟨_, rfl⟩ := of_get? found
    refine ⟨number, base, next, found, ?_⟩
    dsimp only at sync
    rw [key_deriveShadow] at sync
    split at sync
    · next declared =>
      cases sync
      exact .updated (contains_iff.mp declared)
    · obtain ⟨schema, absent, rfl⟩ := insert_eq_ok_iff.mp sync
      exact .generated schema absent
  · rintro ⟨number, base, next, found, turn⟩
    obtain ⟨_, rfl⟩ := of_get? found
    refine bind_eq_ok_iff.mpr ⟨number, next, bind_eq_ok_iff.mpr ⟨base, get_eq_ok_iff.mpr found, ?_⟩⟩
    dsimp only
    rw [key_deriveShadow]
    cases turn with
    | updated declared => exact if_pos (contains_iff.mpr declared)
    | generated schema absent =>
      rw [if_neg fun there => absent (contains_iff.mp there)]
      exact insert_eq_ok_iff.mpr ⟨schema, absent, rfl⟩

/-! ### Shadows -/

/-- What giving a dataset its shadow does: nothing but the shadow is new or changed, and a query
tree that it had is still read in full. -/
structure Synced (c c' : Catalog) (base : Dataset) : Prop where
  schemas : c'.schemas = c.schemas
  queryNodes : c'.queryNodes = c.queryNodes
  distinct : c.DistinctKeys → c'.DistinctKeys
  sources : ∀ d ∈ c'.datasets, d ∈ c.datasets ∨ d.IsShadowOf base ∧
    (d.queryRoot? = none ∨ ∃ e ∈ c.datasets, e.queryRoot? = d.queryRoot? ∧ e.inputs ⊆ d.inputs)
  kept : ∀ d ∈ c.datasets, d.key ≠ shadowKey base.key → d ∈ c'.datasets
  there : c'.HasShadow base

/-- A declared shadow that is derived anew keeps its inputs, and reads its base. -/
theorem mem_inputs_resync {base u : DatasetKey} {derived existing : Dataset} :
    u ∈ (resync base derived existing).inputs ↔ u = base ∨ u ∈ existing.inputs := by
  have inputs : (resync base derived existing).inputs =
      if existing.inputs.contains base then existing.inputs else base :: existing.inputs := rfl
  rw [inputs]
  by_cases old : base ∈ existing.inputs
  · rw [if_pos (List.contains_iff_mem.mpr old)]
    constructor
    · exact .inr
    · rintro (rfl | member)
      · exact old
      · exact member
  · rw [if_neg (fun h => old (List.contains_iff_mem.mp h)), List.mem_cons]

/-- Both ways in which a turn can go leave the catalog in step with the base. -/
theorem Turn.synced {base : Dataset} {number : UInt32} (turn : c.Turn base number c') :
    Synced c c' base := by
  cases turn with
  | updated declared =>
    refine ⟨rfl, rfl, fun distinct => ?_, fun d new => ?_, fun d old other => ?_, ?_⟩
    · rw [DistinctKeys, List.map_map]
      refine (congrArg List.Nodup (List.map_congr_left fun d _ => ?_)).mpr distinct
      rw [Function.comp_apply]
      split <;> rfl
    · obtain ⟨e, old, rfl⟩ := List.mem_map.mp new
      by_cases same : e.key = shadowKey base.key
      · rw [if_pos same]
        rw [← key_deriveShadow base number] at same
        refine .inr ⟨resync_isShadowOf same, .inr ⟨e, old, rfl, fun u input => ?_⟩⟩
        exact mem_inputs_resync.mpr (.inr input)
      · rw [if_neg same]
        exact .inl old
    · exact List.mem_map.mpr ⟨d, old, if_neg other⟩
    · obtain ⟨e, old, same⟩ := declared
      refine ⟨_, List.mem_map.mpr ⟨e, old, if_pos same⟩, ?_, mem_inputs_resync.mpr (.inl rfl)⟩
      rw [← key_deriveShadow base number] at same
      exact resync_isShadowOf same
  | generated _ absent =>
    refine ⟨rfl, rfl, fun distinct => ?_, fun d new => ?_, fun d old _ => ?_, ?_⟩
    · rw [← key_deriveShadow base number] at absent
      exact distinctKeys_append_iff.mpr ⟨distinct, absent⟩
    · rcases List.mem_append.mp new with old | new
      · exact .inl old
      · obtain rfl := List.mem_singleton.mp new
        exact .inr ⟨deriveShadow_isShadowOf base _, .inl rfl⟩
    · exact List.mem_append_left _ old
    · exact ⟨_, List.mem_append_right _ (List.mem_singleton_self _), deriveShadow_isShadowOf base _,
        List.mem_singleton_self _⟩

/-- A turn that comes to an end is the turn of a dataset, and leaves the catalog in step with it. -/
theorem synced_of_syncShadow {key : DatasetKey} (sync : c.syncShadow key = .ok c') :
    ∃ base ∈ c.datasets, base.key = key ∧ Synced c c' base := by
  obtain ⟨_, base, _, found, turn⟩ := syncShadow_eq_ok_iff.mp sync
  obtain ⟨member, named⟩ := of_get? found
  exact ⟨base, member, named, turn.synced⟩

/-- A dataset that is no shadow was there before. -/
theorem Synced.mem_of_not_shadow {base d : Dataset} (sync : Synced c c' base)
    (member : d ∈ c'.datasets) (plain : d.isShadow = false) : d ∈ c.datasets := by
  rcases sync.sources d member with old | ⟨shadow, _⟩
  · exact old
  · rw [shadow.isShadow] at plain
    cases plain

/-- A turn leaves what is linked linked, for it changes no inputs but those of a shadow, and only
adds. -/
private theorem Synced.readsItsTree {base : Dataset} (sync : Synced c c' base)
    (linked : ∀ d ∈ c.datasets, ReadsItsTree c.queryGraph d) :
    ∀ d ∈ c'.datasets, ReadsItsTree c'.queryGraph d := by
  have graph : c'.queryGraph = c.queryGraph := congrArg QueryGraph.mk sync.queryNodes
  intro d member root tree
  rw [graph]
  rcases sync.sources d member with old | ⟨_, none | ⟨e, old, same, inputs⟩⟩
  · exact linked d old root tree
  · rw [none] at tree
    cases tree
  · exact List.Subset.trans (linked e old root (same.trans tree)) inputs

/-- A shadow stays that of its base, whichever dataset gets its shadow next. -/
theorem Synced.hasShadow {base b : Dataset} (sync : Synced c c' base) (distinct : c.DistinctKeys)
    (baseMember : base ∈ c.datasets) (member : b ∈ c.datasets) (shadowed : c.HasShadow b) :
    c'.HasShadow b := by
  obtain ⟨s, old, shadow, reads⟩ := shadowed
  by_cases same : shadowKey b.key = shadowKey base.key
  · have equal : b = base := distinct.eq member baseMember (shadowKey_injective same)
    exact equal ▸ sync.there
  · exact ⟨s, sync.kept s old (by rw [shadow.key]; exact same), shadow, reads⟩

/-- What giving several datasets their shadows does. -/
theorem of_syncShadowsOf {keys : List DatasetKey} (sync : c.syncShadowsOf keys = .ok c')
    (distinct : c.DistinctKeys) (linked : ∀ d ∈ c.datasets, ReadsItsTree c.queryGraph d) :
    c'.schemas = c.schemas ∧ c'.DistinctKeys ∧ (∀ d ∈ c'.datasets, ReadsItsTree c'.queryGraph d) ∧
      ∀ d ∈ c'.datasets, d.isShadow = false →
        d ∈ c.datasets ∧ (d.key ∈ keys ∨ c.HasShadow d → c'.HasShadow d) := by
  induction keys generalizing c with
  | nil =>
    cases sync
    refine ⟨rfl, distinct, linked, fun d member _ => ⟨member, ?_⟩⟩
    rintro (listed | shadowed)
    · cases listed
    · exact shadowed
  | cons key rest ih =>
    obtain ⟨c₁, first, others⟩ := bind_eq_ok_iff.mp sync
    obtain ⟨base, baseMember, rfl, synced⟩ := synced_of_syncShadow first
    obtain ⟨schemas, distinct', linked', later⟩ :=
      ih others (synced.distinct distinct) (synced.readsItsTree linked)
    refine ⟨schemas.trans synced.schemas, distinct', linked', fun d member plain => ?_⟩
    obtain ⟨between, keeps⟩ := later d member plain
    have before := synced.mem_of_not_shadow between plain
    refine ⟨before, ?_⟩
    rintro (listed | shadowed)
    · rcases List.mem_cons.mp listed with same | listed
      · obtain rfl := distinct.eq before baseMember same
        exact keeps (.inr synced.there)
      · exact keeps (.inl listed)
    · exact keeps (.inr (synced.hasShadow distinct baseMember before shadowed))

/-! ### The whole document -/

/-- No input dangles exactly if every input of every dataset is a dataset of the catalog. -/
theorem danglingInput?_eq_none_iff :
    c.danglingInput? = none ↔ ∀ d ∈ c.datasets, ∀ u ∈ d.inputs, ∃ e ∈ c.datasets, e.key = u := by
  rw [danglingInput?, List.findSome?_eq_none_iff]
  simp only [Option.map_eq_none_iff, List.find?_eq_none, Bool.not_eq_true, Bool.not_eq_false',
    contains_iff]

/-- In a sound catalog, what is called like the shadow of a dataset that wants history is its
shadow, and reads it. -/
theorem Sound.isShadowOf (sound : c.Sound) {base d : Dataset} (baseMember : base ∈ c.datasets)
    (plain : base.isShadow = false) (wanted : c.wantsHistory base = true) (member : d ∈ c.datasets)
    (named : d.key = shadowKey base.key) : d.IsShadowOf base ∧ base.key ∈ d.inputs := by
  obtain ⟨s, shadow, ofBase, reads⟩ := sound.shadowed base baseMember plain wanted
  obtain rfl := sound.distinct.eq shadow member (ofBase.key.trans named.symm)
  exact ⟨ofBase, reads⟩

/-- Whether a dataset wants a history is decided by the dataset and the schemas alone. -/
theorem wantsHistory_congr (same : c'.schemas = c.schemas) (d : Dataset) :
    c'.wantsHistory d = c.wantsHistory d := by
  have schema (name : String) : c'.schema? name = c.schema? name := by rw [schema?, schema?, same]
  rw [wantsHistory, wantsHistory, schema]

/-- A document that is accepted describes a sound catalog. -/
theorem sound_of_ofDocument {doc : CatalogDocument} (accepted : ofDocument doc = .ok c) :
    c.Sound := by
  obtain ⟨_, declared, accepted⟩ := bind_eq_ok_iff.mp accepted
  obtain ⟨_, linked, accepted⟩ := bind_eq_ok_iff.mp accepted
  obtain ⟨_, synced, accepted⟩ := bind_eq_ok_iff.mp accepted
  split at accepted
  · cases accepted
  · next closed =>
    cases accepted
    have empty : DistinctKeys ⟨doc.schemas, [], doc.queryNodes⟩ := List.nodup_nil
    obtain ⟨_, distinct, rfl⟩ := (insertAll_eq_ok_iff empty).mp declared
    obtain ⟨_, rfl⟩ := linkQuerySources_eq_ok_iff.mp linked
    obtain ⟨schemas, distinct', reads, shadows⟩ := of_syncShadowsOf synced
      (by rw [DistinctKeys, keys_linkSources]; exact distinct)
      (List.forall_mem_map.mpr fun e _ => readsItsTree_linkSources _ e)
    refine ⟨distinct', danglingInput?_eq_none_iff.mp closed, reads, fun d member plain wanted => ?_⟩
    obtain ⟨before, keeps⟩ := shadows d member plain
    refine keeps (.inl (List.mem_map.mpr ⟨d, List.mem_filter.mpr ⟨before, ?_⟩, rfl⟩))
    rw [plain, ← wantsHistory_congr schemas, wanted]
    rfl

end

end Catalog

end Warehouse
