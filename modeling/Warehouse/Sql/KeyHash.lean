/-
Module: Warehouse.Sql.KeyHash
Purpose: Hash keys over several columns. The texts of the columns are joined in the order of the
  column names, so that the order of declaration does not matter, with a separator between them and
  a token in the place of each `NULL`.
Trusted boundary: none
Main exports: nullToken, defaultSeparator, hashComponents, keyHash, surrogateKey, historyKey,
  KeyExpr.hash
-/
import Warehouse.Sql.Expr
import Warehouse.Sql.KeyExpr

namespace Warehouse.Sql

/-- What stands for a missing value in the text that is hashed. -/
def nullToken : String := "^^NULL^^"

/-- What stands between two values in the text that is hashed. -/
def defaultSeparator : String := "|"

/-- The column that holds when a version of a row began. -/
def versionStartedAt : String := "version_started_at"

/-- A value that takes part in a hash, and the name that gives it its place. -/
structure HashComponent where
  name : String
  expr : Expr

/-- The value as a text, or the token for `NULL`. -/
def nullSafe (e : Expr) : Expr := .coalesce [.cast e .string, .str nullToken]

/-- The components in ascending order of name; those of one name keep their order. -/
def sortByName (components : List HashComponent) : List HashComponent :=
  components.mergeSort fun a b => a.name ≤ b.name

/-- The hash of the components' texts. -/
def hashComponents (components : List HashComponent) (separator : String) :
    Except SurrogateError Expr :=
  if components.isEmpty then .error .noColumns
  else .ok (.hash256 (.concat
    ((sortByName components).map (nullSafe ·.expr) |>.intersperse (.str separator))))

/-- A column, of the table that goes by `qualifier` if there is one. -/
def columnOf (qualifier : Option String) (name : String) : Expr :=
  match qualifier with
  | some q => .colOf q name
  | none => .col name

/-- The hash of the named columns. -/
def keyHash (columns : List String) (separator : String) (qualifier : Option String) :
    Except SurrogateError Expr :=
  hashComponents (columns.map fun n => ⟨n, columnOf qualifier n⟩) separator

/-- The hash of the natural keys. -/
def surrogateKey (naturalKeys : List String) (qualifier : Option String) :
    Except SurrogateError Expr :=
  keyHash naturalKeys defaultSeparator qualifier

/-- The hash of the natural keys together with the load's timestamp, which tells the versions of one
row apart. -/
def historyKey (naturalKeys : List String) (qualifier : Option String) :
    Except SurrogateError Expr :=
  let components := (naturalKeys.filter (· ≠ versionStartedAt)).map fun n =>
    (⟨n, columnOf qualifier n⟩ : HashComponent)
  if components.isEmpty then .error .noColumns
  else hashComponents (components ++ [⟨versionStartedAt, .placeholder .loadTimestamp⟩])
    defaultSeparator

/-- The hash of the columns that an expression mentions, joined with its first string. -/
def KeyExpr.hash (e : KeyExpr) (qualifier : Option String) : Except SurrogateError Expr :=
  keyHash e.columns (e.separator?.getD defaultSeparator) qualifier

end Warehouse.Sql
