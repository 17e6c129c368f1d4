/-
Module: Warehouse.Proofs.Catalog.Encoding
Purpose: The JSON form of a dataset says all about it. Each field is a member of its own name, and
  what is left out is absent or empty. A key is written with a point between its parts; so the form
  tells apart keys of which one has no other point.
Trusted boundary: none
Main exports: DatasetKey.Plain, DatasetKey.display_inj, Dataset.Legible,
  Json.lookup_eq_of_sorted_eq, Dataset.eq_of_sorted_toJson_eq, Dataset.lexical_toJson
-/
import Std.Data.String.ToNat
import Warehouse.Catalog.Encoding
import Warehouse.Proofs.Catalog.Document
import Warehouse.Proofs.Json.Compact

namespace Warehouse

/-! ### Keys -/

/-- A key of which neither part has a point. -/
def DatasetKey.Plain (k : DatasetKey) : Prop := '.' ∉ k.schema.toList ∧ '.' ∉ k.name.toList

/-- A separator that is in neither of two texts tells where each of them ends. -/
private theorem append_cons_inj {α : Type} {x : α} {xs ys xs' ys' : List α} (left : x ∉ xs)
    (right : x ∉ ys) (same : xs ++ x :: ys = xs' ++ x :: ys') : xs = xs' ∧ ys = ys' := by
  rcases List.append_eq_append_iff.mp same with ⟨between, rfl, rest⟩ | ⟨between, rfl, rest⟩
  · cases between with
    | nil =>
      rw [List.nil_append] at rest
      exact ⟨(List.append_nil xs).symm, (List.cons.inj rest).2⟩
    | cons y between =>
      obtain ⟨rfl, _⟩ := List.cons.inj rest
      rw [(List.cons.inj rest).2] at right
      exact absurd (List.mem_append_right _ List.mem_cons_self) right
  · cases between with
    | nil =>
      rw [List.nil_append] at rest
      exact ⟨List.append_nil xs', (List.cons.inj rest).2.symm⟩
    | cons y between =>
      obtain ⟨rfl, _⟩ := List.cons.inj rest
      exact absurd (List.mem_append_right _ List.mem_cons_self) left

/-- A plain key is written like no other key. -/
theorem DatasetKey.display_inj {k k' : DatasetKey} (plain : k.Plain)
    (same : k.display = k'.display) : k = k' := by
  have chars : k.schema.toList ++ '.' :: k.name.toList =
      k'.schema.toList ++ '.' :: k'.name.toList := by
    have texts := congrArg String.toList same
    simpa [display] using texts
  obtain ⟨schema, name⟩ := append_cons_inj plain.1 plain.2 chars
  cases k
  cases k'
  exact DatasetKey.mk.injEq .. ▸ ⟨String.toList_inj.mp schema, String.toList_inj.mp name⟩

/-- The keys that a dataset names. -/
def Dataset.references (d : Dataset) : List DatasetKey :=
  d.inputs ++ d.histOf?.toList ++ d.columns.flatMap fun c => c.lineage.map Lineage.input

/-- A dataset refers to its inputs, to its base, and to what feeds its columns. -/
theorem Dataset.mem_references (d : Dataset) {k : DatasetKey} :
    k ∈ d.references ↔ k ∈ d.inputs ∨ d.histOf? = some k ∨ ∃ c ∈ d.columns, ∃ l ∈ c.lineage,
    l.input = k := by
  rw [references, List.mem_append, List.mem_append, Option.mem_toList, List.mem_flatMap, or_assoc]
  simp only [List.mem_map]

/-- A key that the dataset of another key can name in writing: it is plain, or that of the dataset
whose shadow names it. -/
def DatasetKey.LegibleFrom (k owner : DatasetKey) : Prop := k.Plain ∨ owner = shadowKey k

/-- A dataset whose JSON form says which keys it names. -/
def Dataset.Legible (d : Dataset) : Prop := ∀ k ∈ d.references, k.LegibleFrom d.key

/-- Among the keys that can be read off from a dataset, a text stands for one. -/
theorem DatasetKey.LegibleFrom.eq {k k' owner : DatasetKey} (legible : k.LegibleFrom owner)
    (legible' : k'.LegibleFrom owner) (same : k.display = k'.display) : k = k' := by
  rcases legible with plain | shadow
  · exact display_inj plain same
  · rcases legible' with plain' | shadow'
    · exact (display_inj plain' same.symm).symm
    · exact shadowKey_injective (shadow.symm.trans shadow')

/-! ### Members

Objects are compared with their members sorted, so what matters of an object is what its names lead
to. Each member that a record writes can be read off again: by its name, whatever is written around
it, and with nothing where the record has nothing to say. -/

namespace Json

/-- Objects that are the same in order, with members of distinct names, have the same members by
name. -/
theorem lookup_eq_of_sorted_eq {ms ms' : List (String × Json)}
    (same : (object ms).sorted = (object ms').sorted) {names : List String} (distinct : names.Nodup)
    (sub : (ms.map Prod.fst).Sublist names) (sub' : (ms'.map Prod.fst).Sublist names)
    (name : String) :
    (ms.lookup name).map sorted = (ms'.lookup name).map sorted := by
  rw [← lookup_sorted (sub.nodup distinct), ← lookup_sorted (sub'.nodup distinct), same]

private theorem lookup_singleton (name n : String) (value : Json) :
    [(n, value)].lookup name = if name = n then some value else none := by
  rw [List.lookup_cons, List.lookup_nil]
  by_cases same : name = n
  · rw [if_pos same, beq_iff_eq.mpr same]
  · rw [if_neg same, beq_eq_false_iff_ne.mpr same]

/-- A member that may be left out is found under its name just if it is there. -/
@[simp] theorem lookup_optionalMember (name n : String) (value : Option Json) :
    (optionalMember n value).lookup name = if name = n then value else none := by
  cases value with
  | none => rw [optionalMember, List.lookup_nil, ite_self]
  | some j => exact lookup_singleton name n j

/-- The array of a list that is left out where it is empty. -/
def listValue (items : List Json) : Option Json :=
  if items.isEmpty then none else some (array items)

/-- A list that is left out when empty is found under its name just if it is not. -/
@[simp] theorem lookup_listMember (name n : String) (items : List Json) :
    (listMember n items).lookup name = if name = n then listValue items else none := by
  cases items with
  | nil => exact (ite_self none).symm
  | cons item items => exact lookup_singleton name n _

private theorem names_optionalMember (n : String) (value : Option Json) :
    ((optionalMember n value).map Prod.fst).Sublist [n] := by
  cases value with
  | none => exact List.nil_sublist _
  | some j => exact List.Sublist.refl _

private theorem names_listMember (n : String) (items : List Json) :
    ((listMember n items).map Prod.fst).Sublist [n] := by
  cases items with
  | nil => exact List.nil_sublist _
  | cons item items => exact List.Sublist.refl _

/-- Lists of which no two elements are written alike are the same if their arrays are. -/
theorem eq_of_sorted_array_eq {α : Type} {f : α → Json} {xs ys : List α}
    (apart : ∀ x ∈ xs, ∀ y ∈ ys, (f x).sorted = (f y).sorted → x = y)
    (same : (array (xs.map f)).sorted = (array (ys.map f)).sorted) : xs = ys := by
  rw [sorted_array, sorted_array, List.map_map, List.map_map] at same
  exact eq_of_map_eq_map apart (array.inj same)

/-- Lists are told from their members when each item is. -/
private theorem eq_of_listValue_eq {α : Type} {f : α → Json} {xs ys : List α}
    (apart : ∀ x ∈ xs, ∀ y ∈ ys, (f x).sorted = (f y).sorted → x = y)
    (same : (listValue (xs.map f)).map sorted = (listValue (ys.map f)).map sorted) : xs = ys := by
  cases xs with
  | nil =>
    cases ys with
    | nil => rfl
    | cons y ys => cases same
  | cons x xs =>
    cases ys with
    | nil => cases same
    | cons y ys => exact eq_of_sorted_array_eq apart (Option.some.inj same)

/-- Texts are told from the list in which they are written. -/
theorem eq_of_strings_eq {xs ys : List String} (same : (listValue (xs.map string)).map sorted =
    (listValue (ys.map string)).map sorted) : xs = ys := by
  refine eq_of_listValue_eq (fun x _ y _ equal => ?_) same
  exact string.inj equal

/-- What may be missing is told from its member when the value is. -/
theorem eq_of_optional_eq {α : Type} {f : α → Json} {x y : Option α}
    (apart : ∀ a ∈ x, ∀ b ∈ y, (f a).sorted = (f b).sorted → a = b)
    (same : (x.map f).map sorted = (y.map f).map sorted) : x = y := by
  cases x with
  | none =>
    cases y with
    | none => rfl
    | some b => cases same
  | some a =>
    cases y with
    | none => cases same
    | some b => exact congrArg some (apart a rfl b rfl (Option.some.inj same))

private theorem eq_of_optional_string_eq {x y : Option String}
    (same : (x.map string).map sorted = (y.map string).map sorted) : x = y := by
  refine eq_of_optional_eq (fun a _ b _ equal => ?_) same
  exact string.inj equal

end Json

/-! ### Values -/

/-- Different numbers are written differently. -/
private theorem eq_of_sorted_idToJson_eq {id id' : UInt32}
    (same : (idToJson id).sorted = (idToJson id').sorted) : id = id' := by
  have texts : toString id.toNat = toString id'.toNat := Json.number.inj same
  exact UInt32.toNat_inj.mp (Nat.repr_inj.mp texts)

/-- Each strategy has a name of its own. -/
theorem LoadStrategy.text_inj {a b : LoadStrategy} (same : a.text = b.text) : a = b := by
  revert same
  cases a <;> cases b <;> decide

/-- Each way to materialize a dataset has a name of its own. -/
theorem Materialization.text_inj {a b : Materialization} (same : a.text = b.text) : a = b := by
  revert same
  cases a <;> cases b <;> decide

/-- Each role has a name of its own. -/
theorem SystemRole.text_inj {a b : SystemRole} (same : a.text = b.text) : a = b := by
  revert same
  cases a <;> cases b <;> decide

/-- Where a value comes from can be told from how it is written. -/
theorem Lineage.eq_of_sorted_toJson_eq {l l' : Lineage} {owner : DatasetKey}
    (legible : l.input.LegibleFrom owner) (legible' : l'.input.LegibleFrom owner)
    (same : l.toJson.sorted = l'.toJson.sorted) : l = l' := by
  have distinct : ["upstream", "column", "active"].Nodup := by decide
  have fields :=
    Json.lookup_eq_of_sorted_eq same distinct (List.Sublist.refl _) (List.Sublist.refl _)
  have input : l.input.display = l'.input.display :=
    Json.string.inj (Option.some.inj (fields "upstream"))
  have column : l.column = l'.column := Json.string.inj (Option.some.inj (fields "column"))
  have active : l.active = l'.active := Json.bool.inj (Option.some.inj (fields "active"))
  exact Lineage.mk.injEq .. ▸ ⟨legible.eq legible' input, column, active⟩

/-! ### Columns -/

/-- The names of the members of a column. -/
def columnMembers : List String :=
  ["name", "datatype", "nullable", "ordinal"] ++ ["system_role"] ++ ["former_names"] ++
    ["surrogate_expression"] ++ ["lineage"]

/-- A column is written with these members, in this order, some of which may be left out. -/
private theorem Column.names_toJson (c : Column) :
    (c.toJson.members.map Prod.fst).Sublist columnMembers := by
  simp only [Column.toJson, Json.members, List.map_append]
  apply List.Sublist.append _ (Json.names_listMember "lineage" _)
  apply List.Sublist.append _ (Json.names_optionalMember "surrogate_expression" _)
  apply List.Sublist.append _ (Json.names_listMember "former_names" _)
  apply List.Sublist.append _ (Json.names_optionalMember "system_role" _)
  exact List.Sublist.refl _

/-- Columns that are written alike are the same, so far as their inputs can be read off. -/
theorem Column.eq_of_sorted_toJson_eq {c c' : Column} (owner : DatasetKey)
    (legible : ∀ l ∈ c.lineage, l.input.LegibleFrom owner)
    (legible' : ∀ l ∈ c'.lineage, l.input.LegibleFrom owner)
    (same : c.toJson.sorted = c'.toJson.sorted) : c = c' := by
  have distinct : columnMembers.Nodup := by decide
  have fields := Json.lookup_eq_of_sorted_eq same distinct c.names_toJson c'.names_toJson
  simp only [List.lookup_append, Json.lookup_optionalMember, Json.lookup_listMember] at fields
  have name : c.name = c'.name := Json.string.inj (Option.some.inj (fields "name"))
  have datatype : c.datatype = c'.datatype := Json.string.inj (Option.some.inj (fields "datatype"))
  have nullable : c.nullable = c'.nullable := Json.bool.inj (Option.some.inj (fields "nullable"))
  have ordinal : c.ordinal = c'.ordinal :=
    eq_of_sorted_idToJson_eq (Option.some.inj (fields "ordinal"))
  have role : c.role? = c'.role? := by
    refine Json.eq_of_optional_eq (f := fun r => .string r.text) (fun a _ b _ equal => ?_)
      (by simpa [List.lookup_cons] using fields "system_role")
    exact SystemRole.text_inj (Json.string.inj equal)
  have formerNames : c.formerNames = c'.formerNames :=
    Json.eq_of_strings_eq (by simpa [List.lookup_cons] using fields "former_names")
  have expression : c.surrogateExpression? = c'.surrogateExpression? :=
    Json.eq_of_optional_string_eq (by simpa [List.lookup_cons] using fields "surrogate_expression")
  have lineage : c.lineage = c'.lineage := by
    refine Json.eq_of_listValue_eq (f := Lineage.toJson) (fun l there l' there' equal => ?_)
      (by simpa [List.lookup_cons] using fields "lineage")
    exact Lineage.eq_of_sorted_toJson_eq (legible l there) (legible' l' there') equal
  exact Column.mk.injEq .. ▸
    ⟨name, datatype, nullable, ordinal, role, formerNames, expression, lineage⟩

/-- Source objects that are written alike are the same. -/
theorem SourceObject.eq_of_sorted_toJson_eq {s s' : SourceObject}
    (same : s.toJson.sorted = s'.toJson.sorted) : s = s' := by
  have distinct : (["system"] ++ ["schema"] ++ ["table"]).Nodup := by decide
  have names (s : SourceObject) :
      (s.toJson.members.map Prod.fst).Sublist (["system"] ++ ["schema"] ++ ["table"]) := by
    simp only [SourceObject.toJson, Json.members, List.map_append]
    exact ((List.Sublist.refl _).append (Json.names_optionalMember "schema" _)).append
      (List.Sublist.refl _)
  have fields := Json.lookup_eq_of_sorted_eq same distinct (names s) (names s')
  simp only [List.lookup_append, Json.lookup_optionalMember] at fields
  have system : s.system = s'.system := Json.string.inj (Option.some.inj (fields "system"))
  have schema : s.schema = s'.schema :=
    Json.eq_of_optional_string_eq (by simpa [List.lookup_cons] using fields "schema")
  have table : s.table = s'.table := by simpa [List.lookup_cons, Json.sorted] using fields "table"
  exact SourceObject.mk.injEq .. ▸ ⟨system, schema, table⟩

/-! ### Datasets -/

/-- The names of the members of a dataset. -/
def datasetMembers : List String :=
  ["id", "schema", "name", "incremental_strategy", "materialization"] ++ ["historize"] ++
    ["natural_key_fields"] ++ ["former_names"] ++ ["handle_deletes"] ++ ["incremental_filter"] ++
    ["upstreams"] ++ ["sources"] ++ ["columns"] ++ ["query_root"] ++ ["hist_of"]

/-- A dataset is written with these members, in this order, some of which may be left out. -/
private theorem Dataset.names_toJson (d : Dataset) :
    (d.toJson.members.map Prod.fst).Sublist datasetMembers := by
  simp only [Dataset.toJson, Json.members, List.map_append]
  apply List.Sublist.append _ (Json.names_optionalMember "hist_of" _)
  apply List.Sublist.append _ (Json.names_optionalMember "query_root" _)
  apply List.Sublist.append _ (List.Sublist.refl _)
  apply List.Sublist.append _ (Json.names_listMember "sources" _)
  apply List.Sublist.append _ (Json.names_listMember "upstreams" _)
  apply List.Sublist.append _ (Json.names_optionalMember "incremental_filter" _)
  apply List.Sublist.append _ (List.Sublist.refl _)
  apply List.Sublist.append _ (Json.names_listMember "former_names" _)
  apply List.Sublist.append _ (Json.names_listMember "natural_key_fields" _)
  apply List.Sublist.append _ (Json.names_optionalMember "historize" _)
  exact List.Sublist.refl _

/-- Legible datasets that are written alike are the same. -/
theorem Dataset.eq_of_sorted_toJson_eq {d d' : Dataset} (legible : d.Legible)
    (legible' : d'.Legible) (same : d.toJson.sorted = d'.toJson.sorted) : d = d' := by
  have distinct : datasetMembers.Nodup := by decide
  have fields := Json.lookup_eq_of_sorted_eq same distinct d.names_toJson d'.names_toJson
  simp only [List.lookup_append, Json.lookup_optionalMember, Json.lookup_listMember] at fields
  have id : d.id = d'.id := eq_of_sorted_idToJson_eq (Option.some.inj (fields "id"))
  have schema : d.schema = d'.schema := Json.string.inj (Option.some.inj (fields "schema"))
  have name : d.name = d'.name := Json.string.inj (Option.some.inj (fields "name"))
  have key : d.key = d'.key := DatasetKey.mk.injEq .. ▸ ⟨schema, name⟩
  rw [Dataset.Legible, ← key] at legible'
  have named (k : DatasetKey) (there : k ∈ d.references) (k' : DatasetKey)
    (there' : k' ∈ d'.references)
      (equal : k.toJson.sorted = k'.toJson.sorted) : k = k' :=
    (legible k there).eq (legible' k' there') (Json.string.inj equal)
  have strategy : d.strategy = d'.strategy :=
    LoadStrategy.text_inj (Json.string.inj (Option.some.inj (fields "incremental_strategy")))
  have materialization : d.materialization = d'.materialization :=
    Materialization.text_inj (Json.string.inj (Option.some.inj (fields "materialization")))
  have historize : d.historize? = d'.historize? := by
    refine Json.eq_of_optional_eq (f := Json.bool) (fun a _ b _ equal => ?_)
      (by simpa [List.lookup_cons] using fields "historize")
    exact Json.bool.inj equal
  have naturalKeys : d.naturalKeys = d'.naturalKeys :=
    Json.eq_of_strings_eq (by simpa [List.lookup_cons] using fields "natural_key_fields")
  have formerNames : d.formerNames = d'.formerNames :=
    Json.eq_of_strings_eq (by simpa [List.lookup_cons] using fields "former_names")
  have deletes : d.handleDeletes = d'.handleDeletes := by
    simpa [List.lookup_cons, Json.sorted] using fields "handle_deletes"
  have filter : d.incrementalFilter? = d'.incrementalFilter? :=
    Json.eq_of_optional_string_eq (by simpa [List.lookup_cons] using fields "incremental_filter")
  have inputs : d.inputs = d'.inputs := by
    refine Json.eq_of_listValue_eq (f := DatasetKey.toJson) (fun k there k' there' equal => ?_)
      (by simpa [List.lookup_cons] using fields "upstreams")
    exact named k (d.mem_references.mpr (.inl there)) k' (d'.mem_references.mpr (.inl there')) equal
  have sources : d.sources = d'.sources := by
    refine Json.eq_of_listValue_eq (f := SourceObject.toJson) (fun s _ s' _ equal => ?_)
      (by simpa [List.lookup_cons] using fields "sources")
    exact SourceObject.eq_of_sorted_toJson_eq equal
  have columns : d.columns = d'.columns := by
    refine Json.eq_of_sorted_array_eq (f := Column.toJson) (fun c there c' there' equal => ?_)
      (by simpa [List.lookup_cons] using fields "columns")
    refine Column.eq_of_sorted_toJson_eq d.key (fun l fed => ?_) (fun l fed => ?_) equal
    · exact legible _ (d.mem_references.mpr (.inr (.inr ⟨c, there, l, fed, rfl⟩)))
    · exact legible' _ (d'.mem_references.mpr (.inr (.inr ⟨c', there', l, fed, rfl⟩)))
  have root : d.queryRoot? = d'.queryRoot? := by
    refine Json.eq_of_optional_eq (f := idToJson) (fun a _ b _ equal => ?_)
      (by simpa [List.lookup_cons] using fields "query_root")
    exact eq_of_sorted_idToJson_eq equal
  have histOf : d.histOf? = d'.histOf? := by
    refine Json.eq_of_optional_eq (f := DatasetKey.toJson) (fun k there k' there' equal => ?_)
      (by simpa [List.lookup_cons] using fields "hist_of")
    exact named k (d.mem_references.mpr (.inr (.inl there))) k'
      (d'.mem_references.mpr (.inr (.inl there'))) equal
  exact Dataset.mk.injEq .. ▸
    ⟨id, schema, name, strategy, materialization, historize, naturalKeys, formerNames,
    deletes, filter, inputs, sources, columns, root, histOf⟩

/-! ### Numbers

A number is written as it was read only if it is one that can be written in full. All numbers of a
dataset are natural numbers, so nothing of a dataset is lost on the way. -/

private theorem lexical_idToJson (id : UInt32) : (idToJson id).Lexical := by
  have chars : (toString id.toNat).toList = Nat.toDigits 10 id.toNat := String.toList_ofList
  refine .number ?_ fun c there => ?_
  · rw [chars]
    exact Nat.toDigits_ne_nil
  · rw [chars] at there
    exact Nat.isDigit_of_mem_toDigits (by decide) (by decide) there

private theorem lexical_optionalMember {n : String} {value : Option Json}
    (lexical : ∀ j ∈ value, j.Lexical) : ∀ m ∈ optionalMember n value, m.2.Lexical := by
  cases value with
  | none => exact fun m none => absurd none List.not_mem_nil
  | some j => exact List.forall_mem_singleton.mpr (lexical j rfl)

private theorem lexical_listMember {n : String} {items : List Json}
    (lexical : ∀ j ∈ items, j.Lexical) : ∀ m ∈ listMember n items, m.2.Lexical := by
  cases items with
  | nil => exact fun m none => absurd none List.not_mem_nil
  | cons item items => exact List.forall_mem_singleton.mpr (.array lexical)

private theorem lexical_of_mem_map_string {texts : List String} :
    ∀ j ∈ texts.map Json.string, j.Lexical :=
  List.forall_mem_map.mpr fun s _ => .string s

private theorem lexical_of_mem_option_map {α : Type} {f : α → Json} (lexical : ∀ a, (f a).Lexical)
    {x : Option α} : ∀ j ∈ x.map f, j.Lexical := by
  intro j there
  obtain ⟨a, _, rfl⟩ := Option.map_eq_some_iff.mp there
  exact lexical a

theorem Lineage.lexical_toJson (l : Lineage) : l.toJson.Lexical := by
  apply Json.Lexical.object
  simp only [List.forall_mem_cons]
  exact ⟨.string _, .string _, .bool _, fun m none => absurd none List.not_mem_nil⟩

theorem Column.lexical_toJson (c : Column) : c.toJson.Lexical := by
  have fixed : ∀ m ∈ [("name", Json.string c.name), ("datatype", .string c.datatype),
      ("nullable", .bool c.nullable), ("ordinal", idToJson c.ordinal)], m.2.Lexical := by
    simp only [List.forall_mem_cons]
    exact ⟨.string _, .string _, .bool _, lexical_idToJson _,
      fun m none => absurd none List.not_mem_nil⟩
  apply Json.Lexical.object
  refine List.forall_mem_append.mpr
    ⟨?_, lexical_listMember (List.forall_mem_map.mpr fun l _ => l.lexical_toJson)⟩
  refine List.forall_mem_append.mpr ⟨?_, lexical_optionalMember (lexical_of_mem_option_map .string)⟩
  refine List.forall_mem_append.mpr ⟨?_, lexical_listMember lexical_of_mem_map_string⟩
  exact List.forall_mem_append.mpr
    ⟨fixed, lexical_optionalMember (lexical_of_mem_option_map fun r => .string _)⟩

theorem SourceObject.lexical_toJson (s : SourceObject) : s.toJson.Lexical := by
  apply Json.Lexical.object
  refine List.forall_mem_append.mpr ⟨?_, List.forall_mem_singleton.mpr (.string _)⟩
  refine List.forall_mem_append.mpr ⟨List.forall_mem_singleton.mpr (.string _), ?_⟩
  exact lexical_optionalMember (lexical_of_mem_option_map .string)

/-- All numbers of a dataset are written in decimal digits. -/
theorem Dataset.lexical_toJson (d : Dataset) : d.toJson.Lexical := by
  have fixed : ∀ m ∈ [("id", idToJson d.id), ("schema", .string d.schema), ("name", .string d.name),
      ("incremental_strategy", .string d.strategy.text),
      ("materialization", .string d.materialization.text)], m.2.Lexical := by
    simp only [List.forall_mem_cons]
    exact ⟨lexical_idToJson _, .string _, .string _, .string _, .string _,
      fun m none => absurd none List.not_mem_nil⟩
  have columns : ∀ j ∈ d.columns.map Column.toJson, j.Lexical :=
    List.forall_mem_map.mpr fun c _ => c.lexical_toJson
  apply Json.Lexical.object
  refine List.forall_mem_append.mpr
    ⟨?_, lexical_optionalMember (lexical_of_mem_option_map fun k => .string _)⟩
  refine List.forall_mem_append.mpr
    ⟨?_, lexical_optionalMember (lexical_of_mem_option_map lexical_idToJson)⟩
  refine List.forall_mem_append.mpr ⟨?_, List.forall_mem_singleton.mpr (.array columns)⟩
  refine List.forall_mem_append.mpr
    ⟨?_, lexical_listMember (List.forall_mem_map.mpr fun s _ => s.lexical_toJson)⟩
  refine List.forall_mem_append.mpr
    ⟨?_, lexical_listMember (List.forall_mem_map.mpr fun k _ => .string _)⟩
  refine List.forall_mem_append.mpr ⟨?_, lexical_optionalMember (lexical_of_mem_option_map .string)⟩
  refine List.forall_mem_append.mpr ⟨?_, List.forall_mem_singleton.mpr (.bool _)⟩
  refine List.forall_mem_append.mpr ⟨?_, lexical_listMember lexical_of_mem_map_string⟩
  refine List.forall_mem_append.mpr ⟨?_, lexical_listMember lexical_of_mem_map_string⟩
  exact List.forall_mem_append.mpr ⟨fixed, lexical_optionalMember (lexical_of_mem_option_map .bool)⟩

end Warehouse
