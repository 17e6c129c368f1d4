/-
Module: Warehouse.Load.History
Purpose: Keeping the history of a dataset in its shadow. A version of a row is open until the row
  changes or goes. Four statements bring the shadow up to date, in this order: open versions whose
  base row has another hash are ended; open versions without a base row are ended as deleted; base
  rows with versions but no open one get a new version; base rows without any version get their
  first.
Trusted boundary: none
Main exports: History, History.closeChanged, History.closeDeleted, History.insertVersions,
  historyStatements
-/
import Warehouse.Load.DeleteDetection
import Warehouse.Sql.Statement

namespace Warehouse

open Sql

/-- A shadow and its base. -/
structure History where
  shadow : Dataset
  base : Dataset

namespace History

/-- The alias of the shadow inside a subquery. -/
def shadowAlias : String := "h"

/-- The alias of the base. -/
def baseAlias : String := "b"

/-- The columns that identify a row of the base. -/
def keys (h : History) : List String := h.shadow.naturalKeys

/-- A column of the shadow outside of any subquery. -/
def outer (h : History) (column : String) : Expr := .column (some h.shadow.objectName) column

/-- A column of the base. -/
def ofBase (column : String) : Expr := .colOf baseAlias column

/-- A column of the shadow inside a subquery. -/
def ofShadow (column : String) : Expr := .colOf shadowAlias column

/-- Rows of a table that satisfy a condition, where only their existence counts. -/
def rowsOf (d : Dataset) (name : String) (condition : Option Expr) : Select :=
  { distinct := false
    items := [⟨.literal (.int 1), none⟩]
    source := some (.table ⟨d.objectName, some name⟩)
    filter := condition
    groupBy := [] }

/-- The rows of the base that agree with a version on the keys. -/
def baseMatching (h : History) : Select :=
  rowsOf h.base baseAlias (Expr.andAll (h.keys.map fun k => (ofBase k).eq (h.outer k)))

/-- The versions that agree with a row of the base on the keys. -/
def shadowMatching (h : History) : Select :=
  rowsOf h.shadow shadowAlias (Expr.andAll (h.keys.map fun k => (ofShadow k).eq (ofBase k)))

/-- That the version is open. -/
def isOpen (versionEnd : Expr) : Expr := .isNull versionEnd false

/-- Ends the open versions whose base row has changed. -/
def closeChanged (h : History) (hash : Expr) : Update :=
  (⟨h.shadow.objectName, [("version_ended_at", .placeholder .loadTimestamp)], none⟩ : Update)
    |>.andWhere (isOpen (h.outer "version_ended_at"))
    |>.andWhere (.exists (.select (h.baseMatching.andWhere (hash.ne (h.outer "row_hash")))) false)

/-- Ends the open versions whose base row has gone. -/
def closeDeleted (h : History) : Update :=
  (⟨h.shadow.objectName,
      [("version_ended_at", .placeholder .loadTimestamp), ("version_state", .str "deleted")],
      none⟩ : Update)
    |>.andWhere (isOpen (h.outer "version_ended_at"))
    |>.andWhere (.exists (.select h.baseMatching) true)

/-- What a new version has in a column. -/
def versionValue (h : History) (state : String) (hash : Expr) (c : Column) :
    Except LoadError Expr :=
  match c.role? with
  | some .surrogateKey => liftSurrogate (historyKey h.keys (some baseAlias))
  | some .rowHash => .ok hash
  | some .versionStartedAt | some .loadedAt => .ok (.placeholder .loadTimestamp)
  | some .versionEndedAt => .ok (.cast (.literal .null) .timestamp)
  | some .versionState => .ok (.str state)
  | some .loadRunId => .ok (.placeholder .loadRunId)
  | some .businessKey | some .foreignKey | none =>
    match h.base.column? c.name with
    | some column => .ok (ofBase column.name)
    | none => .ok (.literal .null)

/-- Opens a version for each base row that satisfies the conditions. -/
def insertVersions (h : History) (state : String) (hash : Expr) (conditions : List Expr) :
    Except LoadError Insert := do
  let items ← h.shadow.orderedColumns.mapM fun c => do
    return (⟨← h.versionValue state hash c, none⟩ : SelectItem)
  let body : Select :=
    { distinct := false
      items
      source := some (.table ⟨h.base.objectName, some baseAlias⟩)
      filter := Expr.andAll conditions
      groupBy := [] }
  return ⟨h.shadow.objectName, h.shadow.orderedColumns.map Column.name, .select body⟩

/-- Opens a version for each base row that has versions but no open one. -/
def insertChanged (h : History) (hash : Expr) : Except LoadError Insert :=
  h.insertVersions "changed" hash
    [.exists (.select (h.shadowMatching.andWhere (isOpen (ofShadow "version_ended_at")))) true,
     .exists (.select h.shadowMatching) false]

/-- Opens a version for each base row that has none. -/
def insertNew (h : History) (hash : Expr) : Except LoadError Insert :=
  h.insertVersions "new" hash [.exists (.select h.shadowMatching) true]

/-- The hash of a row of the base. -/
def baseHash (h : History) : Except LoadError Expr := rowHash h.base fun c => .ok (ofBase c.name)

/-- The four statements that bring the shadow up to date. -/
def statements (h : History) : Except LoadError (Update × Update × Insert × Insert) := do
  let hash ← h.baseHash
  let changed ← h.insertChanged hash
  let new ← h.insertNew hash
  return (h.closeChanged hash, h.closeDeleted, changed, new)

end History

/-- The statements that bring the shadow `d` up to date. -/
def historyStatements (c : Catalog) (d : Dataset) : Except LoadError (List Statement) := do
  match d.histOf? with
  | none => .error (.notAShadow d.key)
  | some key =>
    let base ← liftCatalog (c.get key)
    if d.naturalKeys.isEmpty then throw (.missingNaturalKeys d.key)
    let (closeChanged, closeDeleted, insertChanged, insertNew) ← (⟨d, base⟩ : History).statements
    return [.update closeChanged, .update closeDeleted, .insert insertChanged, .insert insertNew]

end Warehouse
