/-
Module: Warehouse.Proofs.Catalog.DisplayedKeys
Purpose: Keys and the texts that display them. Such a text is read as the key just if the point
  between schema and name is its only one, neither of them is empty, and no blank stands at its
  ends. Keys that a document names are read off texts, but schema and name of a declared dataset are
  taken as they stand; so the datasets of a catalog are found by what they display just if all that
  are declared have keys of that kind.
Trusted boundary: none
Main exports: DatasetKey.Readable, DatasetKey.RunsInto, DatasetKey.parse?_eq_some_iff,
  DatasetKey.parse?_display_iff, DatasetKey.display_eq_iff, Catalog.FoundAsDisplayed,
  Catalog.found_as_displayed_iff
-/
import Warehouse.Proofs.Catalog.Encoding
import Warehouse.Proofs.Catalog.Stages
import Warehouse.Proofs.Text.Blanks
import Warehouse.Proofs.Text.Pieces

namespace Warehouse

namespace DatasetKey

/-! ### Reading what is displayed -/

/-- Whether the key can be read off the text that displays it. -/
structure Readable (k : DatasetKey) : Prop where
  plain : k.Plain
  schema_ne : k.schema ≠ ""
  name_ne : k.name ≠ ""
  starts : ∀ c ∈ k.schema.toList.head?, Text.isBlank c = false
  ends : ∀ c ∈ k.name.toList.getLast?, Text.isBlank c = false

variable {k k' : DatasetKey}

private theorem toList_display (k : DatasetKey) :
    k.display.toList = k.schema.toList ++ '.' :: k.name.toList := by
  simp [display]

/-- A key is read off a text just if the text displays it, blanks at the ends apart, and has no
second point. -/
theorem parse?_eq_some_iff {text : String} : parse? text = some k ↔
    Text.trim text.toList = k.display.toList ∧ k.Plain ∧ k.schema ≠ "" ∧ k.name ≠ "" := by
  have pointless (s : List Char) : (∀ c ∈ s, decide (c = '.') = false) ↔ '.' ∉ s := by
    simp only [decide_eq_false_iff_not]
    exact List.forall_mem_ne'
  rw [toList_display]
  constructor
  · intro read
    rw [parse?] at read
    split at read
    · next schema name pieces =>
      obtain ⟨c, point, whole, left, right⟩ := Text.splitWhere_eq_pair_iff.mp pieces
      obtain rfl := of_decide_eq_true point
      split at read
      · cases read
      · next filled =>
        cases read
        simp only [Bool.or_eq_true, List.isEmpty_iff, not_or] at filled
        simp only [String.toList_ofList, Plain, ne_eq, String.ofList_eq_empty_iff]
        exact ⟨whole, ⟨(pointless _).mp left, (pointless _).mp right⟩, filled⟩
    · cases read
  · rintro ⟨whole, plain, schema, name⟩
    have pieces := Text.splitWhere_eq_pair_iff.mpr
      ⟨'.', decide_eq_true rfl, whole, (pointless _).mpr plain.1, (pointless _).mpr plain.2⟩
    rw [parse?, pieces]
    simp [schema, name]

/-- A key that is read off a text has no point in either part. -/
theorem plain_of_parse? {text : String} (read : parse? text = some k) : k.Plain :=
  (parse?_eq_some_iff.mp read).2.1

/-- A displayed key can be read again just if neither part hides where the other begins. -/
theorem parse?_display_iff : parse? k.display = some k ↔ k.Readable := by
  have ends (schema : k.schema ≠ "") (name : k.name ≠ "") :
    Text.trim k.display.toList = k.display.toList ↔
      (∀ c ∈ k.schema.toList.head?, Text.isBlank c = false) ∧
        ∀ c ∈ k.name.toList.getLast?, Text.isBlank c = false := by
    have front : k.display.toList.head? = k.schema.toList.head? := by
      rw [toList_display, List.head?_append_of_ne_nil _ (by simpa using schema)]
    have back : k.display.toList.getLast? = k.name.toList.getLast? := by
      rw [toList_display, List.append_cons, List.getLast?_append_of_ne_nil _ (by simpa using name)]
    rw [Text.trim_eq_self_iff, front, back]
  rw [parse?_eq_some_iff]
  constructor
  · rintro ⟨whole, plain, schema, name⟩
    obtain ⟨starts, ends⟩ := (ends schema name).mp whole
    exact ⟨plain, schema, name, starts, ends⟩
  · rintro ⟨plain, schema, name, starts, ends'⟩
    exact ⟨(ends schema name).mpr ⟨starts, ends'⟩, plain, schema, name⟩

instance (k : DatasetKey) : Decidable k.Readable := decidable_of_iff _ parse?_display_iff

/-! ### Two keys in one text -/

/-- Whether the name of a key starts with what the schema of another ends with, so that a text
displays both. -/
def RunsInto (k k' : DatasetKey) : Prop :=
  ∃ between, k'.schema = k.schema ++ "." ++ between ∧ k.name = between ++ "." ++ k'.name

/-- Keys that differ in the place of the dot only are displayed alike. -/
private theorem RunsInto.display_eq (runs : k.RunsInto k') : k.display = k'.display := by
  obtain ⟨between, schema, name⟩ := runs
  rw [display, display, schema, name]
  simp only [String.append_assoc]

/-- A key without a dot in its schema leaves one place for the dot. -/
private theorem Plain.not_runsInto (plain : k.Plain) : ¬ k.RunsInto k' := by
  rintro ⟨between, _, name⟩
  exact plain.2 (by simp [name])

/-- Keys of which one runs into the other are not the same key. -/
theorem RunsInto.ne (runs : k.RunsInto k') : k ≠ k' := by
  rintro rfl
  obtain ⟨between, schema, _⟩ := runs
  have lengths := congrArg String.length schema
  have point : ".".length = 1 := rfl
  simp only [String.length_append] at lengths
  omega

/-- What stands between the points of two cuts belongs to the name of the first key and to the
schema of the second. -/
theorem eq_or_runsInto {between : List Char}
    (schema : k'.schema.toList = k.schema.toList ++ between)
    (name : '.' :: k.name.toList = between ++ '.' :: k'.name.toList) : k = k' ∨ k.RunsInto k' := by
  cases between with
  | nil =>
    obtain ⟨_, name⟩ := List.cons.inj name
    rw [List.append_nil] at schema
    refine .inl ?_
    cases k
    cases k'
    exact DatasetKey.mk.injEq .. ▸ ⟨(String.toList_inj.mp schema).symm, String.toList_inj.mp name⟩
  | cons c between =>
    obtain ⟨rfl, name⟩ := List.cons.inj name
    refine .inr ⟨String.ofList between, String.toList_inj.mp ?_, String.toList_inj.mp ?_⟩
    · simpa using schema
    · simpa using name

/-- Two keys are displayed by one text just if it is cut at one point for the one and at another for
the other. -/
theorem display_eq_iff : k.display = k'.display ↔ k = k' ∨ k.RunsInto k' ∨ k'.RunsInto k := by
  constructor
  · intro same
    have chars := congrArg String.toList same
    rw [toList_display, toList_display] at chars
    rcases List.append_eq_append_iff.mp chars with ⟨between, schema, name⟩ | ⟨between, schema, name⟩
    · exact (eq_or_runsInto schema name).imp_right .inl
    · exact (eq_or_runsInto schema name).imp Eq.symm .inr
  · rintro (rfl | runs | runs)
    · rfl
    · exact runs.display_eq
    · exact runs.display_eq.symm

/-! ### Shadows -/

/-- The suffix takes nothing away from a key that can be read. -/
theorem Readable.ofShadow (readable : k.Readable) : (shadowKey k).Readable where
  plain := ⟨readable.plain.1, by simp [shadowKey, shadowSuffix, readable.plain.2]⟩
  schema_ne := readable.schema_ne
  name_ne := by simp [shadowKey, shadowSuffix]
  starts := readable.starts
  ends := by
    have last : (shadowKey k).name.toList.getLast? = some 't' := by simp [shadowKey, shadowSuffix]
    rw [last]
    intro c there
    obtain rfl := Option.mem_some_iff.mp there
    decide

end DatasetKey

/-! ### The datasets of a catalog -/

namespace Catalog

/-- Whether every dataset is found by the text that displays its key, which displays no other
key. -/
structure FoundAsDisplayed (c : Catalog) : Prop where
  read : ∀ d ∈ c.datasets, DatasetKey.parse? d.key.display = some d.key
  found : ∀ d ∈ c.datasets, c.getByName d.key.display = .ok d
  distinct : (c.datasets.map fun d => d.key.display).Nodup

variable {doc : CatalogDocument} {c : Catalog}

/-- A dataset is found under its displayed key exactly if the key can be read again. -/
theorem getByName_display_iff (distinct : c.DistinctKeys) {d : Dataset} (member : d ∈ c.datasets) :
    c.getByName d.key.display = .ok d ↔ d.key.Readable := by
  rw [← DatasetKey.parse?_display_iff, getByName]
  constructor
  · intro found
    split at found
    · next key read => rw [read, (of_get? (get_eq_ok_iff.mp found)).2]
    · cases found
  · intro read
    rw [read]
    exact get_eq_ok_iff.mpr (distinct.get? member)

/-- No two datasets are displayed alike exactly if no key runs into another. -/
theorem nodup_display_iff (distinct : c.DistinctKeys) :
    (c.datasets.map fun d => d.key.display).Nodup ↔
    ∀ d ∈ c.datasets, ∀ e ∈ c.datasets, ¬ d.key.RunsInto e.key := by
  rw [List.nodup_map_iff_inj_on (List.Nodup.of_map _ distinct)]
  constructor
  · intro apart d member e member' runs
    exact runs.ne (congrArg Dataset.key (apart d member e member' runs.display_eq))
  · intro apart d member e member' same
    rcases DatasetKey.display_eq_iff.mp same with same | runs | runs
    · exact distinct.eq member member' same
    · exact absurd runs (apart d member e member')
    · exact absurd runs (apart e member' d member)

/-- The shadows of readable keys are readable, so that all keys are if those that are declared
are. -/
theorem SyncedAll.readable_iff (all : SyncedAll doc.linked c doc.linked.historizedKeys) :
    (∀ d ∈ c.datasets, d.key.Readable) ↔ ∀ d ∈ doc.datasets, d.key.Readable := by
  constructor
  · intro readable d declared
    obtain ⟨e, member, same⟩ := all.provides_iff.mpr (.inl ⟨d, declared, rfl⟩)
    exact same ▸ readable e member
  · intro readable d member
    rcases all.provides_iff.mp ⟨d, member, rfl⟩ with
      ⟨e, declared, same⟩ | ⟨base, ⟨declared, _⟩, same⟩
    · exact same ▸ readable e declared
    · exact same ▸ (readable base declared).ofShadow

/-- In a catalog that is accepted, a dataset is found by the text that displays its key just if the
key can be read, and no two keys are displayed by one text just if none runs into another. All this
holds just if the keys that are declared can be read. -/
theorem found_as_displayed_iff (accepted : ofDocument doc = .ok c) :
    (∀ d ∈ c.datasets, (DatasetKey.parse? d.key.display = some d.key ↔ d.key.Readable) ∧
        (c.getByName d.key.display = .ok d ↔ d.key.Readable)) ∧
      ((c.datasets.map fun d => d.key.display).Nodup ↔
        ∀ d ∈ c.datasets, ∀ e ∈ c.datasets, ¬ d.key.RunsInto e.key) ∧
      (c.FoundAsDisplayed ↔ ∀ d ∈ doc.datasets, d.key.Readable) := by
  have all := syncedAll_of_ofDocument accepted
  have each (d : Dataset) (member : d ∈ c.datasets) := getByName_display_iff all.distinct member
  refine ⟨fun d member => ⟨DatasetKey.parse?_display_iff, each d member⟩,
    nodup_display_iff all.distinct, ?_⟩
  rw [← all.readable_iff]
  constructor
  · intro found d member
    exact DatasetKey.parse?_display_iff.mp (found.read d member)
  · intro readable
    refine ⟨fun d member => DatasetKey.parse?_display_iff.mpr (readable d member),
      fun d member => (each d member).mpr (readable d member), ?_⟩
    exact (nodup_display_iff all.distinct).mpr fun d member _ _ =>
      (readable d member).plain.not_runsInto

/-- The customers, as they come in and as they are kept, and their shadow. -/
theorem found_as_displayed_customers :
    ofDocument (customersDocument [] []) = .ok (customersCatalog [] 3) ∧
    (customersCatalog [] 3).FoundAsDisplayed := by
  have accepted : ofDocument (customersDocument [] []) = .ok (customersCatalog [] 3) := by
    with_unfolding_all rfl
  have readable : ∀ d ∈ [stagedCustomers, customers], d.key.Readable := by decide
  exact ⟨accepted, (found_as_displayed_iff accepted).2.2.mpr readable⟩

/-- The items of orders, with a point in their name. -/
def orderItems : Dataset := { stagedCustomers with schema := "core", name := "orders.items" }

/-- The items in the schema of orders. -/
def items : Dataset := { orderItems with id := 2, schema := "core.orders", name := "items" }

/-- Both kinds of items. -/
def itemsDocument : CatalogDocument where
  schemas := [⟨"core", .other, true, false, true⟩, ⟨"core.orders", .other, true, false, true⟩]
  datasets := [orderItems, items]
  queryNodes := []

/-- Both are displayed by one text, by which neither is found. -/
theorem not_always_found_as_displayed : orderItems.key.display = items.key.display ∧
    itemsDocument.declared.getByName items.key.display = .error (.invalidKey "core.orders.items") ∧
    ¬ ∀ doc c, ofDocument doc = .ok c → c.FoundAsDisplayed := by
  have accepted : ofDocument itemsDocument = .ok itemsDocument.declared := by with_unfolding_all rfl
  refine ⟨by decide, by with_unfolding_all rfl, fun always => ?_⟩
  exact absurd ((always _ _ accepted).read items (by decide)) (by decide)

end Catalog

end Warehouse
