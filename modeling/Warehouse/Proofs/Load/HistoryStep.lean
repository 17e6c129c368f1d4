/-
Module: Warehouse.Proofs.Load.HistoryStep
Purpose: What one load does to a history, in closed form: versions end, and after those that were
  there come the reopened ones and the first ones. Nothing is assumed of the rows, so the form also
  holds where keys repeat or are missing.
Trusted boundary: none
Main exports: IsVersionOf, Upkeep, Upkeep.next, History.runs_iff
-/
import Warehouse.Load.History
import Warehouse.Proofs.Catalog.Shadow
import Warehouse.Proofs.Results
import Warehouse.Proofs.Sql.Change
import Warehouse.Proofs.Sql.KeyHash

namespace Warehouse

open Sql

/-- Whether a version has not ended. -/
def isOpen {V : Type} (v : Row V) : Bool := (v.get "version_ended_at").isNone

/-- A version is closed if it has a time at which it ended. -/
theorem isOpen_eq_false_iff {V : Type} {v : Row V} :
    isOpen v = false ↔ ∃ e, v.get "version_ended_at" = some e := by
  rw [isOpen, Option.isNone_eq_false_iff, Option.isSome_iff_exists]

variable {V : Type} [LinearOrder V]

/-! ### One load, in closed form -/

/-- The hash by which a change of a base row is noticed. -/
def rowDigest (E : Engine V) (base : Dataset) (b : Row V) : V :=
  E.hashOf defaultSeparator (((base.hashedColumns.map Column.name).mergeSort (· ≤ ·)).map b.get)

/-- A version as a load at the time `now` opens it for a row of the base. -/
structure IsVersionOf (E : Engine V) (base : Dataset) (now : V) (b v : Row V) : Prop where
  business : ∀ c ∈ base.businessColumns, v.get c.name = b.get c.name
  hash : v.get "row_hash" = some (rowDigest E base b)
  started : v.get "version_started_at" = some now
  ended : v.get "version_ended_at" = none

/-- What a load has to know to bring a history up to date. -/
structure Upkeep (V : Type) where
  keys : List String
  digest : Row V → V
  now : V
  deleted : Option V
  reopened : Row V → Row V
  first : Row V → Row V

namespace Upkeep

variable (u : Upkeep V) (base history : Table V)

/-- Whether a row of the base is that of a version, with another hash. -/
def changes (b v : Row V) : Bool :=
  b.agree u.keys v && (v.get "row_hash").any fun x => u.digest b ≠ x

/-- A version, ended if its row has changed. -/
def endChanged (v : Row V) : Row V :=
  if isOpen v && base.any (u.changes · v) then v.assign [("version_ended_at", some u.now)] else v

/-- A version, ended if its row has gone. -/
def endDeleted (v : Row V) : Row V :=
  if isOpen v && ! base.any (·.agree u.keys v) then
    v.assign [("version_ended_at", some u.now), ("version_state", u.deleted)]
  else v

/-- What becomes of a version. -/
def close (v : Row V) : Row V := u.endDeleted base (u.endChanged base v)

/-- The versions that were there. -/
def kept : Table V := history.map (u.close base)

/-- Whether a row of the base has a version. -/
def hasVersion (b : Row V) : Bool := history.any (·.agree u.keys b)

/-- Whether a row of the base has an open version. -/
def hasOpenVersion (b : Row V) : Bool := history.any fun v => v.agree u.keys b && isOpen v

/-- The versions of rows that have versions but no open one. -/
def reopening : Table V :=
  (base.filter fun b => ! u.hasOpenVersion history b && u.hasVersion history b).map u.reopened

/-- The versions of rows that have none. -/
def beginning : Table V := (base.filter fun b => ! u.hasVersion history b).map u.first

/-- The history after the load. -/
def next : Table V :=
  let old := u.kept base history ++ u.reopening base (u.kept base history)
  old ++ u.beginning base old

end Upkeep

/-! ### The statements

What each statement of a history load does is read off its conditions, one by one: which rows they
select under any reading of the tables, and what the statement leaves of the shadow. -/

namespace History

variable (h : History) (w : World V)

/-- Whether an expression comes to the digest of the row of the base that is in view. -/
def Digests (E : Engine V) (hash : Expr) (digest : Row V → V) : Prop :=
  ∀ w : World V, w.engine = E → ∀ (sc : Scope V) (b : Row V), sc.lookup ⟨none, baseAlias⟩ = some b →
    (hash.eval w sc).value w.engine = some (digest b)

/-- The condition on the end of a version selects the open ones. -/
theorem passes_isOpen {sc : Scope V} {qualifier : ObjectName} {v : Row V}
    (visible : sc.lookup qualifier = some v) :
    Expr.passes w (some (History.isOpen (.column (some qualifier) "version_ended_at"))) sc =
      Warehouse.isOpen v := by
  simp [History.isOpen, Expr.passes_isNull, Expr.eval, Scope.find, visible, Warehouse.isOpen]

/-- A subquery that looks for rows of a table, in a filter. -/
theorem passes_exists_rowsOf (d : Dataset) (name : String) (condition : Option Expr)
    (negated : Bool) (sc : Scope V) :
    Expr.passes w (some (.exists (.select (rowsOf d name condition)) negated)) sc =
      ((w.tables d.objectName).any (fun r => Expr.passes w condition ((⟨none, name⟩, r) :: sc)) !=
        negated) := by
  rw [Expr.passes_exists, rowsOf, Plan.rows_probe_isEmpty]
  cases negated <;> simp

/-- Base rows are matched with the version that an update looks at. -/
theorem passes_baseMatching (b v : Row V) :
    Expr.passes w (Expr.andAll (h.keys.map fun k => (ofBase k).eq (h.outer k)))
      [(⟨none, baseAlias⟩, b), (h.shadow.objectName, v)] = b.agree h.keys v := by
  have apart : h.shadow.objectName ≠ ⟨none, baseAlias⟩ := by simp [Dataset.objectName]
  refine Expr.passes_keys w List.lookup_cons_self ?_ h.keys
  rw [Scope.lookup_cons_of_ne apart, List.lookup_cons_self]

/-- Versions are matched with the base row that an insert looks at. -/
theorem passes_shadowMatching (b v : Row V) :
    Expr.passes w (Expr.andAll (h.keys.map fun k => (ofShadow k).eq (ofBase k)))
      [(⟨none, shadowAlias⟩, v), (⟨none, baseAlias⟩, b)] = v.agree h.keys b := by
  have apart : (⟨none, baseAlias⟩ : ObjectName) ≠ ⟨none, shadowAlias⟩ := by decide
  refine Expr.passes_keys w List.lookup_cons_self ?_ h.keys
  rw [Scope.lookup_cons_of_ne apart, List.lookup_cons_self]

/-- The base rows by which a version has changed. -/
theorem passes_changes {hash : Expr} {u : Upkeep V} (keys : u.keys = h.keys)
    (digests : Digests w.engine hash u.digest) (b v : Row V) :
    Expr.passes w (h.baseMatching.andWhere (hash.ne (h.outer "row_hash"))).filter
      [(⟨none, baseAlias⟩, b), (h.shadow.objectName, v)] = u.changes b v := by
  have apart : h.shadow.objectName ≠ ⟨none, baseAlias⟩ := by simp [Dataset.objectName]
  have digest :=
    digests w rfl [(⟨none, baseAlias⟩, b), (h.shadow.objectName, v)] b List.lookup_cons_self
  have recorded : (((h.outer "row_hash").eval w
      [(⟨none, baseAlias⟩, b), (h.shadow.objectName, v)]).value w.engine) = v.get "row_hash" := by
    simp [outer, Expr.eval, Scope.find, Scope.lookup_cons_of_ne apart]
  have differs : Expr.passes w (some (hash.ne (h.outer "row_hash")))
      [(⟨none, baseAlias⟩, b), (h.shadow.objectName, v)] =
      (v.get "row_hash").any fun x => u.digest b ≠ x := by
    rw [Bool.eq_iff_iff, Expr.passes_ne, digest, recorded]
    cases v.get "row_hash" <;> simp
  rw [Select.andWhere, Expr.passes_addFilter, differs, Upkeep.changes, keys]
  exact congrArg (· && _) (h.passes_baseMatching w b v)

/-- The first update ends the open versions whose row has changed. -/
theorem run_closeChanged {hash : Expr} {u : Upkeep V} (keys : u.keys = h.keys)
    (digests : Digests w.engine hash u.digest) (now : w.placeholder .loadTimestamp = some u.now) :
    (h.closeChanged hash).run w = w.set h.shadow.objectName
      ((w.tables h.shadow.objectName).map (u.endChanged (w.tables h.base.objectName))) := by
  have chosen (v : Row V) : Expr.passes w (h.closeChanged hash).filter [(h.shadow.objectName, v)] =
      (Warehouse.isOpen v && (w.tables h.base.objectName).any (u.changes · v)) := by
    rw [closeChanged, Update.andWhere, Update.andWhere, Expr.passes_addFilter,
      Expr.passes_addFilter,
      outer, passes_isOpen w List.lookup_cons_self, Expr.passes_exists, baseMatching, rowsOf,
      Select.andWhere, Plan.rows_probe_isEmpty]
    simp only [← h.passes_changes w keys digests, baseMatching, rowsOf, Select.andWhere]
    simp [Expr.passes]
  have rewritten : (h.closeChanged hash).rewrite w = u.endChanged (w.tables h.base.objectName) := by
    funext v
    unfold Update.rewrite Upkeep.endChanged
    rw [show (h.closeChanged hash).target = h.shadow.objectName from rfl, chosen v]
    simp [assigned, closeChanged, Update.andWhere, Expr.eval, now]
  rw [Update.run, rewritten]
  rfl

/-- The second update ends the open versions whose row has gone. -/
theorem run_closeDeleted {u : Upkeep V} (keys : u.keys = h.keys)
    (now : w.placeholder .loadTimestamp = some u.now)
    (deleted : w.engine.constant (.string "deleted") = u.deleted) :
    h.closeDeleted.run w = w.set h.shadow.objectName
      ((w.tables h.shadow.objectName).map (u.endDeleted (w.tables h.base.objectName))) := by
  have chosen (v : Row V) : Expr.passes w h.closeDeleted.filter [(h.shadow.objectName, v)] =
      (Warehouse.isOpen v && ! (w.tables h.base.objectName).any (·.agree u.keys v)) := by
    rw [closeDeleted, Update.andWhere, Update.andWhere, Expr.passes_addFilter,
      Expr.passes_addFilter,
      outer, passes_isOpen w List.lookup_cons_self, baseMatching, passes_exists_rowsOf, keys]
    simp only [← h.passes_baseMatching w]
    simp [Expr.passes]
  have rewritten : h.closeDeleted.rewrite w = u.endDeleted (w.tables h.base.objectName) := by
    funext v
    unfold Update.rewrite Upkeep.endDeleted
    rw [show h.closeDeleted.target = h.shadow.objectName from rfl, chosen v]
    simp [assigned, closeDeleted, Update.andWhere, Expr.eval, Expr.str, now, deleted]
  rw [Update.run, rewritten]
  rfl

/-- What a new version has in a column, given the row of the base. -/
def versionCell (hash : Expr) (state : String) (b : Row V) (c : Column) : Option V :=
  (h.versionValue state hash c).toOption.bind fun e =>
    (e.eval w [(⟨none, baseAlias⟩, b)]).value w.engine

/-- The version that is opened for a row of the base. -/
def versionRow (hash : Expr) (state : String) (b : Row V) : Row V :=
  .ofPairs (h.shadow.orderedColumns.map fun c => (c.name, h.versionCell w hash state b c))

private theorem isLocal_historyKey {keys : List String} {qualifier : String} {e : Expr}
    (built : historyKey keys (some qualifier) = .ok e) : e.isLocal = true := by
  unfold historyKey at built
  simp only at built
  split at built
  · cases built
  · refine isLocal_hashComponents built fun c member => ?_
    simp only [List.mem_append, List.mem_map, List.mem_singleton] at member
    rcases member with ⟨k, _, rfl⟩ | rfl <;> rfl

/-- What goes into a version is read from the row of the base. -/
theorem isLocal_versionValue {state : String} {hash e : Expr} {c : Column}
    (reads : hash.isLocal = true) (built : h.versionValue state hash c = .ok e) :
    e.isLocal = true := by
  unfold versionValue at built
  split at built
  · exact isLocal_historyKey (mapError_eq_ok_iff.mp built)
  · cases built
    exact reads
  all_goals try (cases built; rfl)
  all_goals
    split at built <;> cases built <;> rfl

/-- The rows that are added are versions of the base rows that satisfy the conditions. -/
theorem added_insertVersions {hash : Expr} {state : String} {conditions : List Expr} {s : Insert}
    (reads : hash.isLocal = true) (built : h.insertVersions state hash conditions = .ok s) :
    s.target = h.shadow.objectName ∧
      s.added w = ((w.tables h.base.objectName).filter fun b =>
        Expr.passes w (Expr.andAll conditions) [(⟨none, baseAlias⟩, b)]).map
          (h.versionRow w hash state) := by
  obtain ⟨items, built_items, rest⟩ := bind_eq_ok_iff.mp built
  cases rest
  refine ⟨rfl, ?_⟩
  have item {c : Column} {i : SelectItem}
      (built_item : (do return (⟨← h.versionValue state hash c, none⟩ : SelectItem)) = .ok i) :
      h.versionValue state hash c = .ok i.expr := by
    obtain ⟨e, value, same⟩ := bind_eq_ok_iff.mp built_item
    cases same
    exact value
  have cells (b : Row V) :
      items.map (fun i => (i.expr.eval w [(⟨none, baseAlias⟩, b)]).value w.engine) =
        h.shadow.orderedColumns.map (h.versionCell w hash state b) :=
    map_eq_of_mapM_eq_ok built_items fun c _ i built_item => by
      simp [versionCell, item built_item, Except.toOption]
  have rowwise_items : ∀ i ∈ items, i.expr.isRowwise = true :=
    forall_of_mapM_eq_ok built_items fun c _ i built_item =>
      i.expr.isRowwise_of_isLocal (h.isLocal_versionValue reads (item built_item))
  rw [Insert.added, Plan.rows, Select.rows_of_isRowwise w
    (by simpa [Select.isRowwise] using rowwise_items) rfl]
  simp only [Source.scopes, Source.frames, List.map_map, List.filter_map, Option.map_some,
    Option.getD_some]
  refine List.map_congr_left fun b _ => ?_
  simp only [Function.comp_apply, cells, List.zip_map', versionRow]

/-- Whether a base row that an insert looks at has an open version. -/
theorem passes_noOpenVersion {u : Upkeep V} (keys : u.keys = h.keys) (b : Row V) :
    Expr.passes w (some (.exists (.select
        (h.shadowMatching.andWhere (History.isOpen (ofShadow "version_ended_at")))) true))
      [(⟨none, baseAlias⟩, b)] = ! u.hasOpenVersion (w.tables h.shadow.objectName) b := by
  have matching (v : Row V) :
      Expr.passes w
        (h.shadowMatching.andWhere (History.isOpen (ofShadow "version_ended_at"))).filter
        [(⟨none, shadowAlias⟩, v), (⟨none, baseAlias⟩, b)] =
        (v.agree h.keys b && Warehouse.isOpen v) := by
    rw [Select.andWhere, Expr.passes_addFilter, ofShadow, Expr.colOf,
      passes_isOpen w List.lookup_cons_self]
    exact congrArg (· && _) (h.passes_shadowMatching w b v)
  rw [Expr.passes_exists, shadowMatching, rowsOf, Select.andWhere, Plan.rows_probe_isEmpty]
  simp only [shadowMatching, rowsOf, Select.andWhere] at matching
  simp [matching, Upkeep.hasOpenVersion, keys]

/-- Whether a base row that an insert looks at has a version. -/
theorem passes_hasVersion {u : Upkeep V} (keys : u.keys = h.keys) (negated : Bool) (b : Row V) :
    Expr.passes w (some (.exists (.select h.shadowMatching) negated)) [(⟨none, baseAlias⟩, b)] =
      (u.hasVersion (w.tables h.shadow.objectName) b != negated) := by
  rw [shadowMatching, passes_exists_rowsOf]
  simp only [h.passes_shadowMatching w, Upkeep.hasVersion, keys]

/-- The first insert opens a version for each row that has versions but no open one. -/
theorem run_insertChanged {hash : Expr} {s : Insert} {u : Upkeep V} (keys : u.keys = h.keys)
    (reads : hash.isLocal = true) (built : h.insertChanged hash = .ok s)
    (reopened : u.reopened = h.versionRow w hash "changed") :
    s.run w = w.set h.shadow.objectName (w.tables h.shadow.objectName ++
      u.reopening (w.tables h.base.objectName) (w.tables h.shadow.objectName)) := by
  obtain ⟨target, added⟩ := h.added_insertVersions w reads built
  rw [Insert.run, target, added, Upkeep.reopening, reopened]
  simp [Expr.passes_andAll, h.passes_noOpenVersion w keys, h.passes_hasVersion w keys]

/-- The second insert opens a version for each row that has none. -/
theorem run_insertNew {hash : Expr} {s : Insert} {u : Upkeep V} (keys : u.keys = h.keys)
    (reads : hash.isLocal = true) (built : h.insertNew hash = .ok s)
    (first : u.first = h.versionRow w hash "new") :
    s.run w = w.set h.shadow.objectName (w.tables h.shadow.objectName ++
      u.beginning (w.tables h.base.objectName) (w.tables h.shadow.objectName)) := by
  obtain ⟨target, added⟩ := h.added_insertVersions w reads built
  rw [Insert.run, target, added, Upkeep.beginning, first]
  simp [Expr.passes_andAll, h.passes_hasVersion w keys]

/-! ### The versions that are opened -/

/-- The hash is computed from the row of the base. -/
theorem baseHash_spec {hash : Expr} (built : h.baseHash = .ok hash) (E : Engine V) :
    hash.isLocal = true ∧ Digests E hash (rowDigest E h.base) := by
  obtain ⟨components, named, hashed⟩ := bind_eq_ok_iff.mp built
  have components_eq : components = (h.base.hashedColumns.map Column.name).map
      fun n => (⟨n, ofBase n⟩ : HashComponent) := by
    rw [List.map_map]
    exact (List.map_id _).symm.trans (map_eq_of_mapM_eq_ok named fun c _ i value => by
      cases value
      rfl)
  subst components_eq
  have hashed := mapError_eq_ok_iff.mp hashed
  constructor
  · refine isLocal_hashComponents hashed fun c member => ?_
    obtain ⟨n, _, rfl⟩ := List.mem_map.mp member
    rfl
  · rintro w rfl sc b visible
    rw [eval_hashComponents w hashed (by decide), sortByName_map]
    simp [rowDigest, ofBase, Expr.colOf, Expr.eval, Scope.find, visible, Function.comp_def]

/-- In the column of a business value a new version has the value of the base. -/
theorem versionCell_of_isBusiness {hash : Expr} {state : String} {b : Row V} {c column : Column}
    (business : c.isBusiness = true) (found : h.base.column? c.name = some column) :
    h.versionCell w hash state b c = b.get column.name := by
  have value : h.versionValue state hash c = .ok (ofBase column.name) := by
    unfold versionValue
    unfold Column.isBusiness at business
    cases role : c.role? with
    | none => simp [found]
    | some r => cases r <;> simp_all [SystemRole.isBusiness]
  simp [versionCell, value, Except.toOption, ofBase, Expr.colOf, Expr.eval, Scope.find]

/-- What is opened for a row of the base is a version of it. -/
theorem isVersionOf_versionRow {h : History} {w : World V} {hash : Expr} {t : V}
    (shadow : h.shadow.IsShadowOf h.base) (avoids : h.base.AvoidsAddedNames)
    (digests : Digests w.engine hash (rowDigest w.engine h.base))
    (now : w.placeholder .loadTimestamp = some t) (state : String) (b : Row V) :
    IsVersionOf w.engine h.base t b (h.versionRow w hash state b) := by
  have column (c : Column) : c ∈ h.shadow.orderedColumns ↔ c ∈ shadowColumns h.base := by
    rw [mem_orderedColumns, shadow.columns]
  have version {p : String × SystemRole} (hp : p ∈ versionColumns) {value : Option V}
      (cell : ∀ c : Column, c.role? = some p.2 → h.versionCell w hash state b c = value) :
      (h.versionRow w hash state b).get p.1 = value := by
    apply Row.get_ofPairs_map
    · obtain ⟨c, member, name, _⟩ := exists_mem_shadowColumns_of_version h.base hp
      exact ⟨c, (column c).mpr member, by simp [name, Text.sameIgnoringAsciiCase]⟩
    · exact fun c member same => cell c (role?_eq_of_added avoids ((column c).mp member) hp same)
  constructor
  · intro bc business
    apply Row.get_ofPairs_map
    · obtain ⟨c, member, name, _⟩ := exists_mem_shadowColumns_of_business business
      exact ⟨c, (column c).mpr member, by simp [name, Text.sameIgnoringAsciiCase]⟩
    · intro c member same
      have kept := isBusiness_of_business avoids ((column c).mp member) business same
      have called : Text.sameIgnoringAsciiCase bc.name c.name = true := by rwa [same_comm]
      obtain ⟨found, lookup⟩ := exists_column? (mem_columns_of_business business) called
      rw [h.versionCell_of_isBusiness w kept lookup]
      exact b.get_congr (same_trans (of_column? lookup).2 same)
  · refine version (p := ("row_hash", .rowHash)) (by decide) fun c role => ?_
    simp only [versionCell, versionValue, role, Except.toOption, Option.bind_some]
    exact digests w rfl _ b List.lookup_cons_self
  · refine version (p := ("version_started_at", .versionStartedAt)) (by decide) fun c role => ?_
    simp [versionCell, versionValue, role, Except.toOption, Expr.eval, now]
  · refine version (p := ("version_ended_at", .versionEndedAt)) (by decide) fun c role => ?_
    simp [versionCell, versionValue, role, Except.toOption, Expr.eval, w.engine.constant_null]

/-! ### The statements together -/

/-- What a load has to know, for this history. -/
structure Suits (u : Upkeep V) (t : V) : Prop where
  keys : u.keys = h.keys
  digest : u.digest = rowDigest w.engine h.base
  now : u.now = t
  deleted : u.deleted = w.engine.constant (.string "deleted")
  reopened : ∀ b, IsVersionOf w.engine h.base t b (u.reopened b)
  first : ∀ b, IsVersionOf w.engine h.base t b (u.first b)

/-- The four statements have one result. -/
theorem runs_iff {h : History} {w : World V} {t : V}
    {parts : Update × Update × Insert × Insert} (built : h.statements = .ok parts)
    (shadow : h.shadow.IsShadowOf h.base) (avoids : h.base.AvoidsAddedNames)
    (now : w.placeholder .loadTimestamp = some t) :
    ∃ u : Upkeep V, h.Suits w u t ∧ ∀ (d : Dialect) (w' : World V),
      RunsAll d w [.update parts.1, .update parts.2.1, .insert parts.2.2.1,
        .insert parts.2.2.2] w' ↔ w' = w.set h.shadow.objectName
          (u.next (w.tables h.base.objectName) (w.tables h.shadow.objectName)) := by
  obtain ⟨hash, hashed, rest⟩ := bind_eq_ok_iff.mp built
  obtain ⟨changed, builtChanged, rest⟩ := bind_eq_ok_iff.mp rest
  obtain ⟨new, builtNew, rest⟩ := bind_eq_ok_iff.mp rest
  cases rest
  obtain ⟨reads, digests⟩ := h.baseHash_spec hashed w.engine
  have apart : h.base.objectName ≠ h.shadow.objectName := fun same =>
    shadow.name_ne (ObjectName.mk.inj same).2
  let B := w.tables h.base.objectName
  let H := w.tables h.shadow.objectName
  -- Each insert runs in the world that the statements before it have left.
  let u₀ : Upkeep V :=
    ⟨h.keys, rowDigest w.engine h.base, t, w.engine.constant (.string "deleted"), id, id⟩
  let w₂ := w.set h.shadow.objectName (u₀.kept B H)
  let u₁ : Upkeep V := { u₀ with reopened := h.versionRow w₂ hash "changed" }
  let w₃ := w.set h.shadow.objectName (u₀.kept B H ++ u₁.reopening B (u₀.kept B H))
  let u : Upkeep V := { u₁ with first := h.versionRow w₃ hash "new" }
  have ended : h.closeDeleted.run ((h.closeChanged hash).run w) = w₂ := by
    rw [h.run_closeChanged w (u := u) rfl digests now,
      h.run_closeDeleted (w.set _ _) (u := u) rfl now rfl]
    simp only [World.set_set, World.tables_set_self, World.tables_set_of_ne w _ apart, List.map_map]
    rfl
  have reopened : changed.run w₂ = w₃ := by
    rw [h.run_insertChanged w₂ (u := u) rfl reads builtChanged rfl]
    simp only [w₂, World.set_set, World.tables_set_self, World.tables_set_of_ne w _ apart]
    rfl
  have begun : new.run w₃ = w.set h.shadow.objectName (u.next B H) := by
    rw [h.run_insertNew w₃ (u := u) rfl reads builtNew rfl]
    simp only [w₃, World.set_set, World.tables_set_self, World.tables_set_of_ne w _ apart]
    rfl
  refine ⟨u, ⟨rfl, rfl, rfl, rfl, ?_, ?_⟩, fun d w' => ?_⟩
  · exact isVersionOf_versionRow (w := w₂) shadow avoids digests now "changed"
  · exact isVersionOf_versionRow (w := w₃) shadow avoids digests now "new"
  · simp only [runsAll_update, runsAll_insert, runsAll_nil, ended, reopened, begun]
    rfl

/-- The hash can be built if there is business data to hash. -/
theorem exists_baseHash {c : Column} (business : c ∈ h.base.businessColumns) :
    ∃ hash, h.baseHash = .ok hash := by
  have some_hashed : h.base.hashedColumns ≠ [] := by
    unfold Dataset.hashedColumns
    simp only
    split
    · exact List.ne_nil_of_mem business
    · next others => simpa using others
  obtain ⟨components, named⟩ := exists_mapM_eq_ok
    (fun c => do return (⟨c.name, ← (.ok (ofBase c.name) : Except LoadError Expr)⟩ : HashComponent))
    h.base.hashedColumns fun c _ => ⟨_, rfl⟩
  have components_ne : components ≠ [] := by
    rintro rfl
    have none_hashed := mapM_eq_ok_iff.mp named
    exact some_hashed (List.forall₂_nil_right_iff.mp none_hashed)
  obtain ⟨hash, hashed⟩ := exists_hashComponents_eq_ok components_ne defaultSeparator
  exact ⟨hash, bind_eq_ok_iff.mpr ⟨components, named, mapError_eq_ok_iff.mpr hashed⟩⟩

/-- The key of a version can be built if some natural key is not the start of a version. -/
theorem exists_historyKey (keys : List String) {k : String} (member : k ∈ keys)
    (other : k ≠ versionStartedAt) (qualifier : Option String) :
    ∃ e, historyKey keys qualifier = .ok e := by
  have some_key : (keys.filter (· ≠ versionStartedAt)).map
      (fun n => (⟨n, columnOf qualifier n⟩ : HashComponent)) ≠ [] :=
    List.ne_nil_of_mem (List.mem_map_of_mem (List.mem_filter.mpr ⟨member, by simpa using other⟩))
  unfold historyKey
  simp only
  rw [if_neg (by rwa [List.isEmpty_iff])]
  exact exists_hashComponents_eq_ok (by simp) defaultSeparator

/-- If the key of a version can be built, then so can whatever else goes into it. -/
theorem exists_versionValue {h : History} {versionKey : Expr}
    (builtKey : historyKey h.keys (some baseAlias) = .ok versionKey) (state : String) (hash : Expr)
    (c : Column) : ∃ e, h.versionValue state hash c = .ok e := by
  unfold versionValue
  cases c.role? with
  | none =>
    cases h.base.column? c.name with
    | none | some _ => exact ⟨_, rfl⟩
  | some role =>
    cases role with
    | surrogateKey => exact ⟨versionKey, mapError_eq_ok_iff.mpr builtKey⟩
    | businessKey | foreignKey =>
      cases h.base.column? c.name with
      | none | some _ => exact ⟨_, rfl⟩
    | _ => exact ⟨_, rfl⟩

/-- The statements can be built. -/
theorem exists_statements {h : History} (shadow : h.shadow.IsShadowOf h.base)
    (avoids : h.base.AvoidsAddedNames) (keyed : h.base.naturalKeys ≠ [])
    (business : ∀ k ∈ h.base.naturalKeys, ∃ c ∈ h.base.businessColumns,
      Text.sameIgnoringAsciiCase c.name k = true) :
    ∃ parts, h.statements = .ok parts := by
  obtain ⟨k, key⟩ := List.exists_mem_of_ne_nil _ keyed
  obtain ⟨c, columnOfKey, same⟩ := business k key
  obtain ⟨hash, hashed⟩ := h.exists_baseHash columnOfKey
  have other : k ≠ versionStartedAt := by
    rintro rfl
    have differs := avoids c columnOfKey ("version_started_at", .versionStartedAt)
      (List.mem_cons_of_mem _ (by decide))
    exact Bool.noConfusion (same.symm.trans differs)
  rw [← shadow.naturalKeys] at key
  obtain ⟨versionKey, builtKey⟩ := exists_historyKey h.keys key other (some baseAlias)
  have versions (state : String) (conditions : List Expr) :
      ∃ s, h.insertVersions state hash conditions = .ok s := by
    have item (c : Column) :
        ∃ i, (do return (⟨← h.versionValue state hash c, none⟩ : SelectItem)) = .ok i := by
      obtain ⟨e, value⟩ := exists_versionValue builtKey state hash c
      exact ⟨⟨e, none⟩, bind_eq_ok_iff.mpr ⟨e, value, rfl⟩⟩
    obtain ⟨items, built⟩ := exists_mapM_eq_ok _ h.shadow.orderedColumns fun c _ => item c
    exact ⟨_, bind_eq_ok_iff.mpr ⟨items, built, rfl⟩⟩
  obtain ⟨changed, builtChanged⟩ := versions "changed" _
  obtain ⟨new, builtNew⟩ := versions "new" _
  exact ⟨_, bind_eq_ok_iff.mpr ⟨hash, hashed, bind_eq_ok_iff.mpr ⟨changed, builtChanged,
    bind_eq_ok_iff.mpr ⟨new, builtNew, rfl⟩⟩⟩⟩

end History

end Warehouse
