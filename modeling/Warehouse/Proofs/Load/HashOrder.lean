/-
Module: Warehouse.Proofs.Load.HashOrder
Purpose: Hashes do not depend on the order of declaration. The components of a hash stand in the
  order of their names, so that it is the same in whatever order the natural keys and the columns of
  a dataset are listed, and whatever places the columns have.
Trusted boundary: none
Main exports: Sql.sortByName_eq_of_perm, Sql.keyHash_eq_of_perm, Column.placeless,
  normalisedNames_eq_iff, Dataset.Rearranged, Dataset.SameHashes, hashes_in_any_order
-/
import Mathlib.Data.List.Sort
import Warehouse.Load.History
import Warehouse.Proofs.Catalog.Columns
import Warehouse.Proofs.Results
import Warehouse.Proofs.Sql.KeyHash

namespace Warehouse

open Sql

/-! ### Components in the order of their names -/

namespace Sql

attribute [ext] HashComponent

/-- Whether components of one name are the same. -/
def OnePerName (components : List HashComponent) : Prop :=
  ∀ a ∈ components, ∀ b ∈ components, a.name = b.name → a = b

private theorem pairwise_sortByName (components : List HashComponent) :
    (sortByName components).Pairwise fun a b => a.name ≤ b.name := by
  have sorted : (sortByName components).Pairwise fun a b => decide (a.name ≤ b.name) = true := by
    refine List.pairwise_mergeSort ?_ ?_ components
    · exact fun a b c => by simpa using String.le_trans
    · exact fun a b => by simpa using String.le_total a.name b.name
  simpa using sorted

/-- Where names tell components apart, only one order of them is that of the names. -/
theorem sortByName_eq_of_perm {components components' : List HashComponent}
    (perm : components.Perm components') (one : OnePerName components) :
    sortByName components = sortByName components' := by
  have sorted : (sortByName components).Perm (sortByName components') :=
    ((List.mergeSort_perm _ _).trans perm).trans (List.mergeSort_perm _ _).symm
  refine sorted.eq_of_pairwise (fun a b member member' before after => ?_) (pairwise_sortByName _)
    (pairwise_sortByName _)
  have member := (List.mergeSort_perm components _).mem_iff.mp member
  have member' := perm.mem_iff.mpr ((List.mergeSort_perm components' _).mem_iff.mp member')
  exact one a member b member' (String.le_antisymm before after)

/-- With one component for each name, the order in which they are given does not matter for the
hash. -/
theorem hashComponents_eq_of_perm {components components' : List HashComponent}
    (perm : components.Perm components') (one : OnePerName components) (separator : String) :
    hashComponents components separator = hashComponents components' separator := by
  rw [hashComponents, hashComponents, perm.isEmpty_eq, sortByName_eq_of_perm perm one]

/-- The components of columns are computed from their names alone. -/
theorem onePerName_columnOf (qualifier : Option String) (names : List String) :
    OnePerName (names.map fun n => ⟨n, columnOf qualifier n⟩) := by
  intro a member b member' same
  obtain ⟨n, -, rfl⟩ := List.mem_map.mp member
  obtain ⟨n', -, rfl⟩ := List.mem_map.mp member'
  cases same
  rfl

/-- Another name brings another component. -/
theorem OnePerName.concat {components : List HashComponent} {c : HashComponent}
    (one : OnePerName components) (fresh : ∀ a ∈ components, a.name ≠ c.name) :
    OnePerName (components ++ [c]) := by
  intro a member b member' same
  rcases List.mem_append.mp member with earlier | last <;> rcases List.mem_append.mp member' with
    earlier' | last'
  · exact one a earlier b earlier' same
  · rw [List.mem_singleton.mp last'] at same
    exact (fresh a earlier same).elim
  · rw [List.mem_singleton.mp last] at same
    exact (fresh b earlier' same.symm).elim
  · rw [List.mem_singleton.mp last, List.mem_singleton.mp last']

/-- The hash of a key does not depend on the order of its names. -/
theorem keyHash_eq_of_perm {names names' : List String} (perm : names.Perm names')
    (separator : String) (qualifier : Option String) :
    keyHash names separator qualifier = keyHash names' separator qualifier :=
  hashComponents_eq_of_perm (perm.map _) (onePerName_columnOf qualifier names) separator

/-- A key over some columns is the hash of their texts in ascending order of name. -/
theorem keyHash_eq {names : List String} (filled : names ≠ []) (separator : String)
    (qualifier : Option String) : keyHash names separator qualifier = .ok (.hash256 (.concat
      (((names.mergeSort (· ≤ ·)).map fun n => nullSafe (columnOf qualifier n)).intersperse
        (.str separator)))) := by
  rw [keyHash, hashComponents, if_neg (by simpa using filled), sortByName_map, List.map_map]
  rfl

/-- Nor does the key of a history. -/
theorem historyKey_eq_of_perm {keys keys' : List String} (perm : keys.Perm keys')
    (qualifier : Option String) : historyKey keys qualifier = historyKey keys' qualifier := by
  have columns := (perm.filter (· ≠ versionStartedAt)).map fun n =>
    (⟨n, columnOf qualifier n⟩ : HashComponent)
  -- No column is left that is called like the component of the load's timestamp.
  have fresh : ∀ a ∈ (keys.filter (· ≠ versionStartedAt)).map
      fun n => (⟨n, columnOf qualifier n⟩ : HashComponent),
      a.name ≠ versionStartedAt := by
    intro a member
    obtain ⟨n, kept, rfl⟩ := List.mem_map.mp member
    simpa using (List.mem_filter.mp kept).2
  have one := (onePerName_columnOf qualifier (keys.filter (· ≠ versionStartedAt))).concat
    (c := ⟨versionStartedAt, .placeholder .loadTimestamp⟩) fresh
  rw [historyKey, historyKey, columns.isEmpty_eq,
    hashComponents_eq_of_perm (columns.append_right _) one]

end Sql

/-! ### Columns at other places

Two datasets may be the same but for the places of their columns and the order of their natural
keys. Whatever is looked up by name is found alike in both. -/

namespace Dataset

variable {d d' : Dataset}

/-- Whether two datasets differ in the order of the natural keys and of the columns, and in the
places of the columns, and in nothing else. -/
structure Rearranged (d d' : Dataset) : Prop where
  keys : d.naturalKeys.Perm d'.naturalKeys
  columns : (d.columns.map Column.placeless).Perm (d'.columns.map Column.placeless)
  others : d' = { d with naturalKeys := d'.naturalKeys, columns := d'.columns }

/-- What is rearranged can be put back. -/
theorem Rearranged.symm (rearranged : d.Rearranged d') : d'.Rearranged d where
  keys := rearranged.keys.symm
  columns := rearranged.columns.symm
  others := by rw [rearranged.others]

private theorem Rearranged.key_eq (rearranged : d.Rearranged d') : d'.key = d.key := by
  rw [rearranged.others]
  rfl

/-- A column of the one is a column of the other, but for its place. -/
theorem Rearranged.exists_column (rearranged : d.Rearranged d') {c : Column}
    (member : c ∈ d.columns) : ∃ c' ∈ d'.columns, c'.placeless = c.placeless :=
  List.mem_map.mp (rearranged.columns.mem_iff.mp (List.mem_map_of_mem member))

/-- Names are as distinct at other places. -/
theorem Rearranged.distinctNames (rearranged : d.Rearranged d') (distinct : d.DistinctNames) :
    d'.DistinctNames := by
  have names : (d.columns.map Column.name).Perm (d'.columns.map Column.name) := by
    simpa [Column.placeless, Function.comp_def] using rearranged.columns.map Column.name
  have apart : (d.columns.map Column.name).Pairwise fun a b =>
      Text.sameIgnoringAsciiCase a b = false :=
    List.pairwise_map.mpr distinct
  exact List.pairwise_map.mp ((names.pairwise_iff fun differ => by rwa [same_comm]).mp apart)

/-- A name finds the same column in both, but for its place. -/
theorem Rearranged.column?_eq (rearranged : d.Rearranged d') (distinct : d.DistinctNames)
    (name : String) :
    (d.column? name).map Column.placeless = (d'.column? name).map Column.placeless := by
  have found {d d' : Dataset} (rearranged : d.Rearranged d') (distinct : d'.DistinctNames)
    {c : Column}
      (found : d.column? name = some c) :
      (d'.column? name).map Column.placeless = some c.placeless := by
    obtain ⟨member, same⟩ := of_column? found
    obtain ⟨c', member', moved⟩ := rearranged.exists_column member
    have named := Column.name_eq_of_placeless moved
    rw [column?_eq_some distinct member' (named ▸ same), Option.map_some, moved]
  cases here : d.column? name with
  | some c => rw [found rearranged (rearranged.distinctNames distinct) here, Option.map_some]
  | none =>
    cases there : d'.column? name with
    | none => rfl
    | some c' =>
      have back := found rearranged.symm distinct there
      rw [here] at back
      cases back

private theorem Rearranged.isNaturalKey_eq (rearranged : d.Rearranged d') (name : String) :
    d.isNaturalKey name = d'.isNaturalKey name := rearranged.keys.any_eq

/-- The columns of both that hold business data, but for their places. -/
theorem Rearranged.businessColumns_perm (rearranged : d.Rearranged d') :
    (d.businessColumns.map Column.placeless).Perm (d'.businessColumns.map Column.placeless) := by
  have business (e : Dataset) : (e.businessColumns.map Column.placeless).Perm
      ((e.columns.map Column.placeless).filter Column.isBusiness) := by
    rw [List.filter_map]
    exact ((List.mergeSort_perm e.columns _).filter _).map _
  exact (business d).trans ((rearranged.columns.filter _).trans (business d').symm)

/-- The columns of both that a row hash is over, but for their places. -/
theorem Rearranged.hashedColumns_perm (rearranged : d.Rearranged d') :
    (d.hashedColumns.map Column.placeless).Perm (d'.hashedColumns.map Column.placeless) := by
  have others :
    ((d.businessColumns.filter fun c => ! d.isNaturalKey c.name).map Column.placeless).Perm
      ((d'.businessColumns.filter fun c => ! d'.isNaturalKey c.name).map Column.placeless) := by
    have placeless (e : Dataset) :
      (e.businessColumns.filter fun c => ! d.isNaturalKey c.name).map Column.placeless =
        (e.businessColumns.map Column.placeless).filter fun c => ! d.isNaturalKey c.name := by
      rw [List.filter_map]
      rfl
    simp only [← rearranged.isNaturalKey_eq, placeless]
    exact rearranged.businessColumns_perm.filter _
  have none_iff := others.isEmpty_eq
  rw [List.isEmpty_map, List.isEmpty_map] at none_iff
  rw [Dataset.hashedColumns, Dataset.hashedColumns, none_iff]
  split
  · exact rearranged.businessColumns_perm
  · exact others

end Dataset

/-! ### Hashes of columns -/

/-- The component of a hash that a named column is. -/
def Dataset.component (d : Dataset) (input : Option DatasetKey) (name : String) :
    Except LoadError HashComponent :=
  match d.column? name with
  | none => .error (.missingLineage d.key name input)
  | some c => return ⟨c.name, ← sourceValue d c input⟩

/-- Columns of one name are one column. -/
theorem Dataset.DistinctNames.eq_of_name {d : Dataset} (distinct : d.DistinctNames) {a b : Column}
    (ha : a ∈ d.columns) (hb : b ∈ d.columns) (same : a.name = b.name) : a = b :=
  distinct.eq ha hb (by simp [same, Text.sameIgnoringAsciiCase])

private theorem mem_columns_of_hashed {d : Dataset} {c : Column} (hashed : c ∈ d.hashedColumns) :
    c ∈ d.columns := by
  rw [Dataset.hashedColumns] at hashed
  split at hashed
  · exact mem_columns_of_business hashed
  · exact mem_columns_of_business (List.mem_filter.mp hashed).1

private theorem named_eq_ok_iff {name : String} {value : Except LoadError Expr}
    {a : HashComponent} :
    (do return (⟨name, ← value⟩ : HashComponent)) = Except.ok a ↔
      a.name = name ∧ value = .ok a.expr := by
  cases value with
  | error e => simp [bind, Except.bind]
  | ok v =>
    constructor
    · rintro ⟨⟩
      exact ⟨rfl, rfl⟩
    · rintro ⟨rfl, ⟨⟩⟩
      rfl

/-- The named values of a dataset are its components, name by name. -/
theorem namedValues_eq_mapM (d : Dataset) (input : Option DatasetKey) (names : List String) :
    namedValues d input names = names.mapM (d.component input) := by
  induction names with
  | nil => rfl
  | cons name names ih =>
    rw [namedValues, List.mapM_cons, Dataset.component]
    cases d.column? name with
    | none => rfl
    | some c =>
      dsimp only
      rw [ih]
      cases sourceValue d c input <;> rfl

/-- A hash of computed components is the same in any order of what they are computed from, if their
names tell them apart. -/
theorem hash_mapM_of_perm {α : Type} {f : α → Except LoadError HashComponent} {xs xs' : List α}
    (perm : xs.Perm xs')
    (ties : ∀ x ∈ xs, ∀ y ∈ xs, ∀ a b, f x = .ok a → f y = .ok b → a.name = b.name → a = b)
    {separator : String} {e : Expr}
    (built : (xs.mapM f >>= fun cs => liftSurrogate (hashComponents cs separator)) = .ok e) :
    (xs'.mapM f >>= fun cs => liftSurrogate (hashComponents cs separator)) = .ok e := by
  obtain ⟨components, made, hashed⟩ := bind_eq_ok_iff.mp built
  obtain ⟨components', made', perm'⟩ := exists_mapM_eq_ok_of_perm perm made
  have origin {a : HashComponent} (member : a ∈ components) : ∃ x ∈ xs, f x = .ok a :=
    exists_of_mem_right (mapM_eq_ok_iff.mp made) member
  have one : OnePerName components := by
    intro a member b member' same
    obtain ⟨x, listed, made_a⟩ := origin member
    obtain ⟨y, listed', made_b⟩ := origin member'
    exact ties x listed y listed' a b made_a made_b same
  rw [hashComponents_eq_of_perm perm' one] at hashed
  exact bind_eq_ok_iff.mpr ⟨components', made', hashed⟩

/-! ### Sets of names -/

private theorem pairwise_lt_eraseDups {names : List String} (sorted : names.Pairwise (· ≤ ·)) :
    names.eraseDups.Pairwise (· < ·) := by
  match names with
  | [] => exact .nil
  | name :: names =>
    obtain ⟨first, rest⟩ := List.pairwise_cons.mp sorted
    rw [List.eraseDups_cons]
    refine .cons (fun other member => ?_) (pairwise_lt_eraseDups (rest.filter _))
    obtain ⟨among, differs⟩ := List.mem_filter.mp (List.mem_eraseDups.mp member)
    exact lt_of_le_of_ne (first other among) fun same => by simp [same] at differs
termination_by names.length
decreasing_by exact Nat.lt_succ_of_le (List.length_filter_le _ _)

/-- Lists of names are compared as sets, and without regard to the case of ASCII letters. -/
theorem normalisedNames_eq_iff {names names' : List String} :
    normalisedNames names = normalisedNames names' ↔
    ∀ lowered, lowered ∈ names.map Text.asciiLower ↔ lowered ∈ names'.map Text.asciiLower := by
  have mem_iff (names : List String) (lowered : String) :
      lowered ∈ normalisedNames names ↔ lowered ∈ names.map Text.asciiLower := by
    rw [normalisedNames, List.mem_eraseDups, List.mem_mergeSort]
  have ascending (names : List String) : (normalisedNames names).Pairwise (· < ·) :=
    pairwise_lt_eraseDups (List.pairwise_mergeSort' _ _)
  constructor
  · intro same lowered
    rw [← mem_iff, same, mem_iff]
  · intro members
    have perm : (normalisedNames names).Perm (normalisedNames names') :=
      (List.perm_ext_iff_of_nodup (ascending names).nodup (ascending names').nodup).mpr
        fun lowered => by
        rw [mem_iff, members, mem_iff]
    exact perm.eq_of_pairwise' ((ascending names).imp le_of_lt) ((ascending names').imp le_of_lt)

/-- As a set of names a list does not depend on its order. -/
theorem normalisedNames_eq_of_perm {names names' : List String} (perm : names.Perm names') :
    normalisedNames names = normalisedNames names' :=
  normalisedNames_eq_iff.mpr fun _ => (perm.map _).mem_iff

/-! ### The hashes of a dataset -/

namespace Dataset

variable {d d' : Dataset}

private theorem Rearranged.sourceValue_eq (rearranged : d.Rearranged d') {c c' : Column}
    (moved : c.placeless = c'.placeless) (input : Option DatasetKey) :
    sourceValue d c input = sourceValue d' c' input := by
  have placeless (c : Column) : sourceValue d c input = sourceValue d c.placeless input := rfl
  rw [placeless c, moved, ← placeless c', sourceValue.eq_def, sourceValue.eq_def, rearranged.key_eq]

/-- The component of a name is the same wherever its column stands. -/
theorem Rearranged.component_eq (rearranged : d.Rearranged d') (distinct : d.DistinctNames)
    (input : Option DatasetKey) (name : String) :
    d.component input name = d'.component input name := by
  have found := rearranged.column?_eq distinct name
  rw [Dataset.component, Dataset.component, rearranged.key_eq]
  cases here : d.column? name with
  | none =>
    rw [here, Option.map_none, eq_comm, Option.map_eq_none_iff] at found
    rw [found]
  | some c =>
    rw [here, Option.map_some, eq_comm, Option.map_eq_some_iff] at found
    obtain ⟨c', there, moved⟩ := found
    have named := Column.name_eq_of_placeless moved
    rw [there]
    dsimp only
    rw [named, rearranged.sourceValue_eq moved.symm]

/-- Components of one name are of the same column. -/
theorem component_inj {input : Option DatasetKey} {x y : String} {a b : HashComponent}
    (first : d.component input x = .ok a) (second : d.component input y = .ok b)
    (same : a.name = b.name) : a = b := by
  have column {x : String} {a : HashComponent} (made : d.component input x = .ok a) :
      ∃ c, d.column? x = some c ∧ a.name = c.name ∧ sourceValue d c input = .ok a.expr := by
    rw [Dataset.component] at made
    split at made
    · cases made
    · next c found => exact ⟨c, found, named_eq_ok_iff.mp made⟩
  obtain ⟨c, found, named, read⟩ := column first
  obtain ⟨c', found', named', read'⟩ := column second
  have called : Text.sameIgnoringAsciiCase x a.name = true := by
    rw [named, same_comm]
    exact (of_column? found).2
  have called' : Text.sameIgnoringAsciiCase a.name y = true := by
    rw [same, named']
    exact (of_column? found').2
  rw [column?_congr d (same_trans called called'), found'] at found
  cases found
  rw [read'] at read
  exact HashComponent.ext same (Except.ok.inj read).symm

/-- A surrogate key is made up of the same columns, in another order. -/
theorem Rearranged.exists_surrogateParts (rearranged : d.Rearranged d') {c c' : Column}
    (moved : c.placeless = c'.placeless) {names : List String} {separator : String}
    (made : surrogateParts d c = .ok (names, separator)) :
    ∃ names', surrogateParts d' c' = .ok (names', separator) ∧ names.Perm names' := by
  have placeless (e : Dataset) (c : Column) :
    surrogateParts e c = surrogateParts e c.placeless := rfl
  rw [placeless, moved, ← placeless] at made
  have normal := normalisedNames_eq_of_perm rearranged.keys
  rw [surrogateParts] at made ⊢
  cases text : c'.surrogateExpression? with
  | none =>
    rw [text] at made
    cases made
    exact ⟨d'.naturalKeys, rfl, rearranged.keys⟩
  | some text' =>
    rw [text, normal] at made
    dsimp only at made ⊢
    obtain ⟨e, read, checked⟩ := bind_eq_ok_iff.mp made
    rw [read]
    dsimp only [bind, Except.bind]
    split at checked
    · next agree =>
      cases checked
      exact ⟨e.columns, if_pos agree, .refl _⟩
    · cases checked

/-- The surrogate key of a rearranged dataset is the same. -/
theorem Rearranged.surrogateKeyValue_eq_ok (rearranged : d.Rearranged d')
    (distinct : d.DistinctNames) {c c' : Column} (moved : c.placeless = c'.placeless)
    {input : Option DatasetKey} {e : Expr} (built : surrogateKeyValue d c input = .ok e) :
    surrogateKeyValue d' c' input = .ok e := by
  obtain ⟨⟨names, separator⟩, parts, built⟩ := bind_eq_ok_iff.mp built
  obtain ⟨names', parts', perm⟩ := rearranged.exists_surrogateParts moved parts
  dsimp only at built
  rw [namedValues_eq_mapM, funext (rearranged.component_eq distinct input)] at built
  rw [surrogateKeyValue, parts']
  dsimp only [bind, Except.bind]
  rw [namedValues_eq_mapM]
  exact hash_mapM_of_perm perm (fun x _ y _ a b first second => component_inj first second) built

/-- The hash of a row is the same if no value depends on the places of columns. -/
theorem Rearranged.rowHash_eq_ok (rearranged : d.Rearranged d') (distinct : d.DistinctNames)
    {value : Column → Except LoadError Expr} (placeless : ∀ c, value c.placeless = value c)
    {e : Expr} (built : rowHash d value = .ok e) : rowHash d' value = .ok e := by
  -- The component of a column is that of the column without its place.
  have forget (e : Dataset) : rowHash e value =
    (e.hashedColumns.map Column.placeless).mapM (fun c => do
      return (⟨c.name, ← value c⟩ : HashComponent)) >>= fun cs =>
        liftSurrogate (hashComponents cs defaultSeparator) := by
    rw [rowHash, List.mapM_map]
    simp only [Function.comp_def, placeless]
    rfl
  rw [forget] at built ⊢
  refine hash_mapM_of_perm rearranged.hashedColumns_perm ?_ built
  intro x member y member' a b first second same
  obtain ⟨c, hashed, rfl⟩ := List.mem_map.mp member
  obtain ⟨c', hashed', rfl⟩ := List.mem_map.mp member'
  obtain ⟨named, read⟩ := named_eq_ok_iff.mp first
  obtain ⟨named', read'⟩ := named_eq_ok_iff.mp second
  have one : c = c' :=
    distinct.eq_of_name (mem_columns_of_hashed hashed) (mem_columns_of_hashed hashed')
      (named.symm.trans (same.trans named'))
  rw [one, read'] at read
  exact HashComponent.ext same (Except.ok.inj read).symm

/-- Whether the hashes of two datasets are the same expressions, where they can be built: the
surrogate key of a column that is the same but for its place, the row hash over the values that a
load reads and over those of the table itself, and the key of a version. -/
structure SameHashes (d d' : Dataset) : Prop where
  surrogateKey : ∀ (c c' : Column) (input : Option DatasetKey) (e : Expr),
    c.placeless = c'.placeless →
    (surrogateKeyValue d c input = .ok e ↔ surrogateKeyValue d' c' input = .ok e)
  loadedRow : ∀ (input : Option DatasetKey) (e : Expr),
    rowHash d (sourceValue d · input) = .ok e ↔ rowHash d' (sourceValue d' · input) = .ok e
  storedRow : ∀ (shadow shadow' : Dataset) (e : Expr),
    (⟨shadow, d⟩ : History).baseHash = .ok e ↔ (⟨shadow', d'⟩ : History).baseHash = .ok e
  version : ∀ (qualifier : Option String) (e : Expr),
    historyKey d.naturalKeys qualifier = .ok e ↔ historyKey d'.naturalKeys qualifier = .ok e

private theorem Rearranged.sameHashes (rearranged : d.Rearranged d') (distinct : d.DistinctNames) :
    d.SameHashes d' := by
  have distinct' := rearranged.distinctNames distinct
  have back := rearranged.symm
  refine ⟨fun c c' input e moved => ?_, fun input e => ?_, fun shadow shadow' e => ?_,
    fun qualifier e => ?_⟩
  · exact ⟨rearranged.surrogateKeyValue_eq_ok distinct moved,
      back.surrogateKeyValue_eq_ok distinct' moved.symm⟩
  · have values : (sourceValue d · input) = (sourceValue d' · input) :=
      funext fun c => rearranged.sourceValue_eq rfl input
    rw [values]
    exact ⟨rearranged.rowHash_eq_ok distinct fun _ => rfl,
      back.rowHash_eq_ok distinct' fun _ => rfl⟩
  · exact ⟨rearranged.rowHash_eq_ok distinct fun _ => rfl,
      back.rowHash_eq_ok distinct' fun _ => rfl⟩
  · rw [historyKey_eq_of_perm rearranged.keys]

end Dataset

/-- The hashes of a dataset do not depend on the order of its natural keys, nor on the order and the
places of its columns. A key over any columns is the same in every order of them, and has their
texts in ascending order of name. -/
theorem hashes_in_any_order {d d' : Dataset} (distinct : d.DistinctNames)
    (rearranged : d.Rearranged d') : d.SameHashes d' ∧
    ∀ (names : List String) (separator : String) (qualifier : Option String),
      (∀ names', names.Perm names' →
        keyHash names separator qualifier = keyHash names' separator qualifier) ∧
      (names ≠ [] → ∃ ascending : List String, ascending.Perm names ∧ ascending.Pairwise (· ≤ ·) ∧
        keyHash names separator qualifier = .ok (.hash256 (.concat
          ((ascending.map fun n => nullSafe (columnOf qualifier n)).intersperse
            (.str separator))))) := by
  refine ⟨rearranged.sameHashes distinct, fun names separator qualifier =>
    ⟨fun names' perm => ?_, fun filled => ?_⟩⟩
  · exact keyHash_eq_of_perm perm separator qualifier
  · exact ⟨_, List.mergeSort_perm names _, List.pairwise_mergeSort' (· ≤ ·) names,
      keyHash_eq filled separator qualifier⟩

/-- The column of the key, at any place. -/
def ordersKey (ordinal : UInt32) : Column :=
  { Column.plain "orders_key" "varchar(64)" ordinal with role? := some .surrogateKey }

/-- Orders under a key of the platform's own, with the number of their shop and their own number. -/
def shopOrders : Dataset :=
  { customers with
    name := "orders"
    naturalKeys := ["shop", "ID"]
    columns :=
      [ordersKey 1,
       { Column.plain "shop" "bigint" 2 with
         role? := some .businessKey, lineage := [⟨arrivedCustomers, "ShopNo", true⟩] },
       { Column.plain "id" "bigint" 3 with
         role? := some .businessKey, lineage := [⟨arrivedCustomers, "OrderNo", true⟩] },
       { Column.plain "total" "bigint" 4 with lineage := [⟨arrivedCustomers, "Sum", true⟩] },
       { Column.plain "note" "varchar(200)" 5 with lineage := [⟨arrivedCustomers, "Note", true⟩] }]
         }

/-- The same orders, declared from back to front. -/
def reversedOrders : Dataset :=
  { shopOrders with
    naturalKeys := shopOrders.naturalKeys.reverse
    columns := shopOrders.columns.reverse.map fun c => { c with ordinal := 9 - c.ordinal } }

/-- The key of an order can be built and is the same whichever way the orders are declared, and so
are the hash of what else there is and the key of a version. -/
theorem shopOrders_in_any_order : shopOrders.DistinctNames ∧ shopOrders.Rearranged reversedOrders ∧
    ∃ key row version,
      surrogateKeyValue shopOrders (ordersKey 1) (some arrivedCustomers) = .ok key ∧
      surrogateKeyValue reversedOrders (ordersKey 8) (some arrivedCustomers) = .ok key ∧
      rowHash shopOrders (sourceValue shopOrders · (some arrivedCustomers)) = .ok row ∧
      rowHash reversedOrders (sourceValue reversedOrders · (some arrivedCustomers)) = .ok row ∧
      historyKey shopOrders.naturalKeys none = .ok version ∧
      historyKey reversedOrders.naturalKeys none = .ok version := by
  have distinct : shopOrders.DistinctNames := by unfold Dataset.DistinctNames; decide +kernel
  have rearranged : shopOrders.Rearranged reversedOrders :=
    ⟨by decide +kernel, by decide +kernel, rfl⟩
  have same := (hashes_in_any_order distinct rearranged).1
  have ordered : shopOrders.orderedColumns = shopOrders.columns :=
    List.mergeSort_of_pairwise (by decide)
  obtain ⟨key, key_built⟩ :
    ∃ e, surrogateKeyValue shopOrders (ordersKey 1) (some arrivedCustomers) = .ok e := ⟨_, rfl⟩
  obtain ⟨row, row_built⟩ :
      ∃ e, rowHash shopOrders (sourceValue shopOrders · (some arrivedCustomers)) = .ok e := by
    rw [rowHash, Dataset.hashedColumns, Dataset.businessColumns, ordered]
    exact ⟨_, rfl⟩
  obtain ⟨version, version_built⟩ : ∃ e, historyKey shopOrders.naturalKeys none = .ok e := ⟨_, rfl⟩
  exact ⟨distinct, rearranged, key, row, version, key_built,
    (same.surrogateKey _ _ _ _ rfl).mp key_built,
    row_built, (same.loadedRow _ _).mp row_built, version_built,
    (same.version _ _).mp version_built⟩

end Warehouse
